import Mathlib.Algebra.Order.BigOperators.Group.List
import Mathlib.Algebra.Order.Group.Nat
import Scrum4Me.Service.Runner

/-!
# One tick at a time

A wake that lands while a copy of `drive` is between the clearing of `running` and
its continuation, and while a newer tick runs, is remembered for the wrong copy.
In the runs in which no continuation finds `pending` set beside a tick that another
copy started, one tick runs at a time, every wake is answered by exactly one
follow-up, and a stop is final.
-/

namespace Scrum4Me
namespace Service
namespace Runner

open Foundation

/-! ## What is asked of a run -/

/-- The ticks that have not settled. -/
def flights (runner : Runner) : List Drive :=
  runner.drives.filter (·.phase = .inFlight)

/-- A continuation that goes round the loop finds no tick of another copy. -/
def Orderly (runner : Runner) : Step → Prop
  | .resume _ =>
      ¬ (runner.pending = true ∧ runner.stopped = false ∧ runner.running ≠ none)
  | _ => True

instance (runner : Runner) (step : Step) : Decidable (runner.Orderly step) := by
  apply @Step.casesOn (fun step => Decidable (runner.Orderly step)) step
  all_goals intros
  all_goals dsimp only [Orderly]
  all_goals infer_instance

/-- No call from outside. -/
def Step.Inner : Step → Prop
  | .run | .wake | .stop => False
  | _ => True

/-- The follow-ups that the wakes since the last start ask for. -/
def owed (runner : Runner) : Nat :=
  if 0 < runner.wakes ∧ runner.stopped = false then 1 else 0

/-- A promise of `stop` resolves when no tick is in flight. -/
def ResolvesDrained (runner : Runner) (step : Step) : Prop :=
  ∀ waited, step = .drained waited → waited ∈ runner.stops →
    runner.Drained waited → runner.flights = []

/-! ## The copies of `drive` -/

/-- The ticks whose `finally` callback has not run. -/
def active (runner : Runner) : List Nat :=
  (runner.drives.filter fun drive => ¬ drive.phase.Cleared).map Drive.tick

theorem mem_active {runner : Runner} {drive : Drive} (member : drive ∈ runner.drives)
    (uncleared : ¬ drive.phase.Cleared) :
    drive.tick ∈ runner.active :=
  List.mem_map_of_mem (List.mem_filter.mpr ⟨member, decide_eq_true uncleared⟩)

theorem flights_length_le (runner : Runner) : runner.flights.length ≤ runner.active.length := by
  rw [active, List.length_map, flights, ← List.countP_eq_length_filter,
    ← List.countP_eq_length_filter]
  apply List.countP_mono_left
  intro drive _ flying
  rw [of_decide_eq_true flying]
  rfl

structure Sound (runner : Runner) : Prop where
  /-- `running` is the tick of the one copy that has not been cleared. -/
  active : runner.active = runner.running.toList
  pending : runner.pending = true ↔ 0 < runner.wakes
  /-- A remembered wake has a copy that will look at it. -/
  watched : runner.pending = true → runner.stopped = false → runner.drives ≠ []
  stopped : ∀ waited ∈ runner.stops, runner.stopped = true
  waited : ∀ waited ∈ runner.stops, ∀ drive ∈ runner.drives,
    ¬ drive.phase.Cleared → waited = some drive.tick

theorem start_sound : start.Sound where
  active := rfl
  pending := ⟨Bool.noConfusion, fun positive => absurd positive (Nat.lt_irrefl 0)⟩
  watched pending _ := Bool.noConfusion pending
  stopped _ member := absurd member List.not_mem_nil
  waited _ member := absurd member List.not_mem_nil

theorem Sound.startTick
    {runner : Runner} (idle : runner.active = []) (going : runner.stopped = false)
    (stopped : ∀ waited ∈ runner.stops, runner.stopped = true) :
    runner.startTick.Sound where
  active := by
    have unfolded : runner.startTick.active = runner.started :: runner.active := by
      simp [Runner.startTick, Runner.active, Phase.Cleared]
    rw [unfolded, idle]
    rfl
  pending := ⟨Bool.noConfusion, fun positive => absurd positive (Nat.lt_irrefl 0)⟩
  watched pending _ := Bool.noConfusion pending
  stopped waited member := absurd (stopped waited member) (by rw [going]; exact Bool.false_ne_true)
  waited waited member := absurd (stopped waited member) (by rw [going]; exact Bool.false_ne_true)

theorem Sound.idle {runner : Runner} (sound : runner.Sound) (free : runner.running = none) :
    runner.active = [] := by
  rw [sound.active, free]
  rfl

theorem Sound.drive {runner : Runner} (sound : runner.Sound) : runner.drive.Sound := by
  rw [Runner.drive]
  split
  · exact sound
  · rename_i free
    have going : runner.stopped = false := Bool.eq_false_iff.mpr fun stopped => free (.inl stopped)
    have idle : runner.running = none := by_contra fun busy => free (.inr busy)
    exact .startTick (sound.idle idle) going sound.stopped

theorem drive_remembered {runner : Runner} (sound : runner.Sound) (going : runner.stopped = false) :
    ({ runner with pending := true, wakes := runner.wakes + 1 }.drive).Sound := by
  rw [Runner.drive]
  split
  · rename_i busy
    have running : runner.running ≠ none := busy.resolve_left (by
      rw [going]
      exact Bool.false_ne_true)
    exact
      { active := sound.active
        pending := ⟨fun _ => Nat.succ_pos _, fun _ => rfl⟩
        watched := by
          intro _ _ empty
          apply running
          have idle := sound.active
          rw [Runner.active, show runner.drives = [] from empty] at idle
          exact Option.toList_eq_nil_iff.mp idle.symm
        stopped := sound.stopped
        waited := sound.waited }
  · rename_i free
    have idle : runner.running = none := by_contra fun busy => free (.inr busy)
    exact .startTick (sound.idle idle) going sound.stopped

/-! ## Replacing a copy -/

theorem active_perm {runner : Runner} {drive : Drive} (member : drive ∈ runner.drives) :
    runner.active.Perm ({ runner with drives := drive :: runner.drives.erase drive }.active) :=
  ((List.perm_cons_erase member).filter _).map _

/-- A cleared copy does not count. -/
theorem active_cons_cleared {runner : Runner} {drive : Drive} {drives : List Drive}
    (cleared : drive.phase.Cleared) :
    { runner with drives := drive :: drives }.active = { runner with drives }.active := by
  simp [active, cleared]

theorem active_cons_uncleared {runner : Runner} {drive : Drive} {drives : List Drive}
    (uncleared : ¬ drive.phase.Cleared) :
    { runner with drives := drive :: drives }.active =
      drive.tick :: { runner with drives }.active := by
  simp [active, uncleared]

/-- The continuation of a cleared copy leaves the ticks that run as they are. -/
theorem Sound.active_erase {runner : Runner} (sound : runner.Sound) {drive : Drive}
    (member : drive ∈ runner.drives) (cleared : drive.phase.Cleared) :
    { runner with drives := runner.drives.erase drive }.active = runner.running.toList := by
  have perm := active_perm member
  rw [active_cons_cleared cleared, sound.active] at perm
  cases running : runner.running with
  | none =>
    rw [running] at perm
    exact List.nil_perm.mp perm
  | some tick =>
    rw [running] at perm
    exact (List.singleton_perm.mp perm).symm

/-- The `finally` callback clears the only tick that runs. -/
theorem Sound.active_cleared {runner : Runner} (sound : runner.Sound) {drive : Drive}
    (member : drive ∈ runner.drives) (uncleared : ¬ drive.phase.Cleared) :
    { runner with drives := runner.drives.erase drive }.active = [] := by
  have perm := (active_perm member).length_eq
  rw [active_cons_uncleared uncleared, sound.active, List.length_cons] at perm
  apply List.eq_nil_of_length_eq_zero
  cases running : runner.running with
  | none =>
    rw [running] at perm
    exact absurd perm.symm (Nat.succ_ne_zero _)
  | some tick =>
    rw [running] at perm
    exact (Nat.succ.inj perm).symm

theorem settle_active (runner : Runner) (tick : Nat) (outcome : Outcome) :
    (runner.execute (.settle tick outcome)).active = runner.active := by
  rw [active, active, execute]
  dsimp only
  induction runner.drives with
  | nil => rfl
  | cons drive drives ih =>
    rw [List.map_cons]
    by_cases settles : drive = ⟨tick, .inFlight⟩
    · rw [if_pos settles, settles, List.filter_cons_of_pos rfl,
        List.filter_cons_of_pos rfl, List.map_cons, List.map_cons,
        ih]
    · rw [if_neg settles, List.filter_cons, List.filter_cons]
      split
      · rw [List.map_cons, List.map_cons, ih]
      · exact ih

/-! ## One step -/

section Steps

variable {runner : Runner}

theorem Sound.settle (sound : runner.Sound) (tick : Nat) (outcome : Outcome) :
    (runner.execute (.settle tick outcome)).Sound where
  active := (settle_active runner tick outcome).trans sound.active
  pending := sound.pending
  watched pending going empty := sound.watched pending going (List.map_eq_nil_iff.mp empty)
  stopped := sound.stopped
  waited := by
    intro waited member drive found uncleared
    obtain ⟨before, earlier, rfl⟩ := List.mem_map.mp found
    have same := sound.waited waited member before earlier
    by_cases settles : before = ⟨tick, .inFlight⟩
    · rw [if_pos settles]
      rw [settles] at same
      exact same not_false
    · rw [if_neg settles] at uncleared ⊢
      exact same uncleared

theorem Sound.clear (sound : runner.Sound) {tick : Nat} {outcome : Outcome}
    (member : ⟨tick, .settled outcome⟩ ∈ runner.drives) :
    ({ runner with
      running := none
      drives := ⟨tick, .cleared outcome⟩ ::
        runner.drives.erase ⟨tick, .settled outcome⟩ } : Runner).Sound where
  active :=
    (@active_cons_cleared { runner with running := none } ⟨tick, .cleared outcome⟩ _ trivial).trans
      (sound.active_cleared member not_false)
  pending := sound.pending
  watched _ _ := List.cons_ne_nil _ _
  stopped := sound.stopped
  waited := by
    intro waited isWaited drive found uncleared
    rcases List.mem_cons.mp found with rfl | found
    · exact absurd trivial uncleared
    · exact sound.waited waited isWaited drive (List.mem_of_mem_erase found) uncleared

theorem Sound.resume (sound : runner.Sound) {tick : Nat} {outcome : Outcome}
    (orderly : runner.Orderly (.resume ⟨tick, .cleared outcome⟩)) :
    (runner.execute (.resume ⟨tick, .cleared outcome⟩)).Sound := by
  rw [execute]
  split
  case isFalse => exact sound
  case isTrue member =>
    have active := sound.active_erase member trivial
    dsimp only
    split
    case isTrue again =>
      have free : runner.running = none := by_contra fun busy => orderly ⟨again.1, again.2, busy⟩
      rw [free] at active
      exact .startTick active again.2 sound.stopped
    case isFalse ends =>
      exact
        { active := active
          pending := sound.pending
          watched := fun pending going => absurd ⟨pending, going⟩ ends
          stopped := sound.stopped
          waited := fun waited isWaited drive found =>
            sound.waited waited isWaited drive (List.mem_of_mem_erase found) }

theorem Sound.stop (sound : runner.Sound) : (runner.execute .stop).Sound where
  active := sound.active
  pending := sound.pending
  watched _ going := Bool.noConfusion going
  stopped _ _ := rfl
  waited := by
    intro waited member drive found uncleared
    rcases List.mem_cons.mp member with rfl | member
    · have running : drive.tick ∈ runner.active := mem_active found uncleared
      rw [sound.active] at running
      exact Option.mem_toList.mp running
    · exact sound.waited waited member drive found uncleared

/-- Every step keeps the variables and the suspended copies in agreement. -/
theorem Sound.execute (sound : runner.Sound) {step : Step} (orderly : runner.Orderly step) :
    (runner.execute step).Sound := by
  cases step with
  | run => exact sound.drive
  | wake =>
    rw [Runner.execute]
    split
    case isTrue => exact sound
    case isFalse going => exact drive_remembered sound (Bool.eq_false_iff.mpr going)
  | stop => exact sound.stop
  | settle tick outcome => exact sound.settle tick outcome
  | clear drive =>
    obtain ⟨tick, phase⟩ := drive
    cases phase with
    | settled outcome =>
      rw [Runner.execute]
      split
      case isTrue member => exact sound.clear member
      case isFalse => exact sound
    | inFlight => exact sound
    | cleared outcome => exact sound
  | resume drive =>
    obtain ⟨tick, phase⟩ := drive
    cases phase with
    | cleared outcome => exact sound.resume orderly
    | _ => exact sound
  | drained waited =>
    rw [Runner.execute]
    split
    case isFalse => exact sound
    case isTrue =>
      exact
        { active := sound.active
          pending := sound.pending
          watched := sound.watched
          stopped := fun other member => sound.stopped other (List.mem_of_mem_erase member)
          waited := fun other member =>
            sound.waited other (List.mem_of_mem_erase member) }

/-! ## Ticks started and ticks owed -/

/-- A stopped runner stays stopped and starts nothing. -/
theorem execute_stopped (stopped : runner.stopped = true) (step : Step) :
    (runner.execute step).stopped = true ∧ (runner.execute step).started = runner.started := by
  cases step with
  | run =>
    rw [Runner.execute, Runner.drive, if_pos (.inl stopped)]
    exact ⟨stopped, rfl⟩
  | wake =>
    rw [Runner.execute, if_pos stopped]
    exact ⟨stopped, rfl⟩
  | stop => exact ⟨rfl, rfl⟩
  | settle tick outcome => exact ⟨stopped, rfl⟩
  | clear drive =>
    obtain ⟨tick, phase⟩ := drive
    cases phase <;> rw [Runner.execute]
    case settled => split <;> exact ⟨stopped, rfl⟩
    all_goals simp [stopped]
  | resume drive =>
    obtain ⟨tick, phase⟩ := drive
    cases phase <;> rw [Runner.execute]
    case cleared =>
      split
      · dsimp only
        rw [if_neg fun again => absurd again.2 (by
          rw [stopped]
          exact Bool.noConfusion)]
        exact ⟨stopped, rfl⟩
      · exact ⟨stopped, rfl⟩
    all_goals simp [stopped]
  | drained waited =>
    rw [Runner.execute]
    split <;> exact ⟨stopped, rfl⟩

theorem owed_le_one (runner : Runner) : runner.owed ≤ 1 := by
  rw [owed]
  split <;> omega

theorem startTick_owed (runner : Runner) : runner.startTick.owed = 0 :=
  if_neg fun positive => Nat.lt_irrefl 0 positive.1

/-- An accepted wake has its tick started or owed. -/
theorem execute_wake (going : runner.stopped = false) :
    (runner.execute .wake).started + (runner.execute .wake).owed = runner.started + 1 := by
  rw [Runner.execute, if_neg (by
    rw [going]
    exact Bool.false_ne_true), Runner.drive]
  split
  · rw [owed, if_pos ⟨Nat.succ_pos _, going⟩]
  · rw [startTick_owed]
    rfl

theorem drive_owed (runner : Runner) :
    runner.started + runner.owed ≤ runner.drive.started + runner.drive.owed := by
  rw [Runner.drive]
  split
  · exact Nat.le_refl _
  · rw [startTick_owed]
    exact Nat.add_le_add_left runner.owed_le_one _

/-- A step of the runner itself starts a tick only where one is owed. -/
theorem Sound.execute_inner (sound : runner.Sound) (step : Step) (inner : step.Inner) :
    (runner.execute step).started + (runner.execute step).owed = runner.started + runner.owed := by
  cases step with
  | settle tick outcome => rfl
  | clear drive =>
    obtain ⟨tick, phase⟩ := drive
    cases phase <;> rw [Runner.execute]
    case settled => split <;> rfl
    all_goals simp
  | resume drive =>
    obtain ⟨tick, phase⟩ := drive
    cases phase <;> rw [Runner.execute]
    case cleared =>
      split
      · dsimp only
        split
        case isTrue again =>
          rw [startTick_owed, owed, if_pos ⟨sound.pending.mp again.1, again.2⟩]
          rfl
        case isFalse => rfl
      · rfl
    all_goals simp
  | drained waited =>
    rw [Runner.execute]
    split <;> rfl
  | _ => exact inner.elim

theorem Sound.owed_le
    (sound : runner.Sound) {step : Step} (going : (runner.execute step).stopped = false) :
    runner.started + runner.owed ≤ (runner.execute step).started + (runner.execute step).owed := by
  cases step with
  | run => exact runner.drive_owed
  | wake =>
    have before : runner.stopped = false := by
      apply Bool.eq_false_iff.mpr
      intro stopped
      rw [(execute_stopped stopped .wake).1] at going
      exact Bool.noConfusion going
    rw [execute_wake before]
    exact Nat.add_le_add_left runner.owed_le_one _
  | stop => exact Bool.noConfusion going
  | settle tick outcome =>
    exact Nat.le_of_eq (sound.execute_inner (.settle tick outcome) trivial).symm
  | clear drive => exact Nat.le_of_eq (sound.execute_inner (.clear drive) trivial).symm
  | resume drive => exact Nat.le_of_eq (sound.execute_inner (.resume drive) trivial).symm
  | drained waited => exact Nat.le_of_eq (sound.execute_inner (.drained waited) trivial).symm

theorem Sound.resolvesDrained (sound : runner.Sound) (step : Step) :
    runner.ResolvesDrained step := by
  rintro waited rfl member drained
  apply List.eq_nil_iff_forall_not_mem.mpr
  intro drive flying
  obtain ⟨found, phase⟩ := List.mem_filter.mp flying
  have uncleared : ¬ drive.phase.Cleared := by
    rw [of_decide_eq_true phase]
    exact not_false
  exact uncleared (drained drive found (sound.waited waited member drive found uncleared))

end Steps

/-! ## Running on without calls -/

def Phase.weight : Phase → Nat
  | .inFlight => 3
  | .settled _ => 2
  | .cleared _ => 1

/-- The steps that the copies and the wake they owe can still take. -/
def weight (runner : Runner) : Nat :=
  (runner.drives.map fun drive => Phase.weight drive.phase).sum +
    if runner.pending = true ∧ runner.stopped = false then 3 else 0

theorem sum_erase {runner : Runner} {drive : Drive} (member : drive ∈ runner.drives) :
    (runner.drives.map fun drive => Phase.weight drive.phase).sum = Phase.weight drive.phase +
        ((runner.drives.erase drive).map fun drive =>
          Phase.weight drive.phase).sum :=
  ((List.perm_cons_erase member).map _).sum_nat

theorem startTick_weight (runner : Runner) :
    runner.startTick.weight =
      3 + (runner.drives.map fun drive => Phase.weight drive.phase).sum := by
  simp [weight, startTick, Phase.weight]

section Progress

variable {runner : Runner} {tick : Nat} {outcome : Outcome}

theorem settle_weight_lt (member : ⟨tick, .inFlight⟩ ∈ runner.drives) :
    (runner.execute (.settle tick .result)).weight < runner.weight := by
  apply Nat.add_lt_add_right
  rw [Runner.execute, List.map_map]
  apply List.sum_lt_sum
  · intro drive _
    dsimp only [Function.comp_apply]
    split
    case isTrue settles => simp [settles, Phase.weight]
    case isFalse => exact Nat.le_refl _
  · exact ⟨_, member, by simp [Phase.weight]⟩

theorem clear_weight_lt (member : ⟨tick, .settled outcome⟩ ∈ runner.drives) :
    (runner.execute (.clear ⟨tick, .settled outcome⟩)).weight < runner.weight := by
  rw [Runner.execute, if_pos member, weight, weight, sum_erase member]
  simp [Phase.weight]

theorem resume_weight_lt (member : ⟨tick, .cleared outcome⟩ ∈ runner.drives) :
    (runner.execute (.resume ⟨tick, .cleared outcome⟩)).weight < runner.weight := by
  rw [Runner.execute, if_pos member]
  dsimp only
  split
  case isTrue again =>
    rw [startTick_weight, weight, sum_erase member, if_pos again]
    simp only [Phase.weight]
    omega
  case isFalse =>
    rw [weight, weight, sum_erase member]
    simp [Phase.weight]

/-- A suspended copy can take a step of its own that brings the end closer. -/
theorem Sound.progress (sound : runner.Sound) (busy : runner.drives ≠ []) :
    ∃ step : Step, step.Inner ∧ runner.Orderly step ∧
      (runner.execute step).weight < runner.weight := by
  by_cases open' : ∃ drive ∈ runner.drives, ¬ drive.phase.Cleared
  · obtain ⟨⟨tick, phase⟩, member, uncleared⟩ := open'
    cases phase with
    | inFlight => exact ⟨.settle tick .result, trivial, trivial, settle_weight_lt member⟩
    | settled outcome =>
      exact ⟨.clear ⟨tick, .settled outcome⟩, trivial, trivial, clear_weight_lt member⟩
    | cleared outcome => exact absurd trivial uncleared
  · obtain ⟨⟨tick, phase⟩, member⟩ := List.exists_mem_of_ne_nil _ busy
    have cleared : phase.Cleared := by_contra fun uncleared => open' ⟨_, member, uncleared⟩
    -- nothing runs, so that the continuation is alone
    have idle : runner.active = [] := by
      rw [Runner.active, List.filter_eq_nil_iff.mpr fun drive found uncleared =>
        open' ⟨drive, found, of_decide_eq_true uncleared⟩]
      rfl
    cases phase with
    | cleared outcome =>
      refine ⟨.resume ⟨tick, .cleared outcome⟩, trivial, ?_, resume_weight_lt member⟩
      intro again
      rw [sound.active] at idle
      exact again.2.2 (Option.toList_eq_nil_iff.mp idle)
    | _ => exact cleared.elim

/-- Left alone, the runner comes to rest. -/
theorem Sound.rests (sound : runner.Sound) :
    ∃ rest : List Step, (∀ step ∈ rest, step.Inner) ∧ EveryStep Runner.execute Orderly runner rest ∧
      (run Runner.execute runner rest).drives = [] := by
  generalize size : runner.weight = weight
  induction weight using Nat.strongRecOn generalizing runner with
  | ind weight ih =>
    by_cases empty : runner.drives = []
    · exact ⟨[], List.forall_mem_nil _, trivial, empty⟩
    obtain ⟨step, inner, orderly, smaller⟩ := sound.progress empty
    obtain ⟨rest, allInner, allOrderly, atRest⟩ := ih _ (size ▸ smaller) (sound.execute orderly) rfl
    refine ⟨step :: rest, ?_, ⟨orderly, allOrderly⟩, atRest⟩
    exact List.forall_mem_cons.mpr ⟨inner, allInner⟩

/-- Left alone until it rests, the runner starts the ticks that it owes. -/
theorem Sound.follow_ups
    (sound : runner.Sound) {rest : List Step} (inner : ∀ step ∈ rest, step.Inner)
    (orderly : EveryStep Runner.execute Orderly runner rest)
    (atRest : (run Runner.execute runner rest).drives = []) :
    (run Runner.execute runner rest).started = runner.started + runner.owed := by
  induction rest generalizing runner with
  | nil =>
    have nothing : runner.owed = 0 := if_neg fun due =>
      sound.watched (sound.pending.mpr due.1) due.2 atRest
    rw [nothing]
    rfl
  | cons step rest ih =>
    rw [run_cons] at atRest ⊢
    rw [ih (sound.execute orderly.1)
      (fun other member => inner other (List.mem_cons_of_mem _ member))
      orderly.2 atRest]
    exact sound.execute_inner step (inner step List.mem_cons_self)

end Progress

/-! ## Runs -/

section Runs

variable {steps : List Step}

theorem run_sound (orderly : EveryStep execute Orderly start steps) :
    (run execute start steps).Sound :=
  run_invariant (fun _ _ sound admitted => sound.execute admitted) start_sound orderly

theorem run_stopped {runner : Runner} (stopped : runner.stopped = true) (steps : List Step) :
    (run execute runner steps).stopped = true ∧
      (run execute runner steps).started = runner.started := by
  induction steps generalizing runner with
  | nil => exact ⟨stopped, rfl⟩
  | cons step rest ih =>
    obtain ⟨still, same⟩ := execute_stopped stopped step
    obtain ⟨atEnd, later⟩ := ih still
    exact ⟨atEnd, later.trans same⟩

/-- What is started or owed stays so until the runner is stopped. -/
theorem Sound.owed_kept {runner : Runner} (sound : runner.Sound)
    (orderly : EveryStep Runner.execute Orderly runner steps)
    (going : (run Runner.execute runner steps).stopped = false) :
    runner.started + runner.owed ≤ (run Runner.execute runner steps).started +
        (run Runner.execute runner steps).owed := by
  induction steps generalizing runner with
  | nil => exact Nat.le_refl _
  | cons step rest ih =>
    have next : (runner.execute step).stopped = false := by
      apply Bool.eq_false_iff.mpr
      intro stopped
      rw [run_cons, (run_stopped stopped rest).1] at going
      exact Bool.noConfusion going
    exact Nat.le_trans (sound.owed_le next) (ih (sound.execute orderly.1) orderly.2 going)

theorem wake_answered {before after : List Step}
    (orderly : EveryStep execute Orderly start (before ++ .wake :: after))
    (going : (run execute start (before ++ .wake :: after)).stopped = false) :
    (run execute start before).started < (run execute start (before ++ .wake :: after)).started +
        (run execute start (before ++ .wake :: after)).owed := by
  rw [run_append] at going ⊢
  obtain ⟨earlier, woken, later⟩ :=
    (everyStep_append Orderly start before (.wake :: after)).mp orderly
  have sound := run_sound earlier
  have awake : (run execute start before).stopped = false := by
    apply Bool.eq_false_iff.mpr
    intro stopped
    rw [(run_stopped stopped (.wake :: after)).1] at going
    exact Bool.noConfusion going
  have kept := (sound.execute woken).owed_kept later going
  rw [execute_wake awake] at kept
  exact Nat.lt_of_succ_le kept

/-- In an orderly run one tick is in flight at most, every wake that no stop
follows has its tick started or owed, the runner left alone comes to rest and
starts exactly the tick it owes on the way, no tick starts after a stop, and the
promises of `stop` resolve with no tick in flight. -/
theorem one_tick_at_a_time (steps : List Step) (orderly : EveryStep execute Orderly start steps) :
    (run execute start steps).flights.length ≤ 1 ∧
      (∀ before after, steps = before ++ .wake :: after →
        (run execute start steps).stopped = false →
        (run execute start before).started < (run execute start steps).started +
            (run execute start steps).owed) ∧
      ((∃ rest : List Step, (∀ step ∈ rest, step.Inner) ∧
          EveryStep execute Orderly (run execute start steps) rest ∧
          (run execute start (steps ++ rest)).drives = []) ∧
        ∀ rest : List Step, (∀ step ∈ rest, step.Inner) →
          EveryStep execute Orderly (run execute start steps) rest →
          (run execute start (steps ++ rest)).drives = [] →
          (run execute start (steps ++ rest)).started = (run execute start steps).started +
              (run execute start steps).owed) ∧
      (∀ before after, steps = before ++ .stop :: after → (run execute start steps).started =
          (run execute start before).started) ∧
      EveryStep execute ResolvesDrained start steps := by
  have sound := run_sound orderly
  refine ⟨?_, ?_, ⟨?_, ?_⟩, ?_, ?_⟩
  · refine Nat.le_trans (flights_length_le _) ?_
    rw [sound.active]
    exact Option.length_toList_le
  · rintro before after rfl going
    exact wake_answered orderly going
  · simp only [run_append]
    exact sound.rests
  · intro rest inner restOrderly atRest
    rw [run_append] at atRest ⊢
    exact sound.follow_ups inner restOrderly atRest
  · rintro before after rfl
    rw [run_append]
    exact (run_stopped rfl after).2
  · exact .of_invariant (fun _ _ kept admitted => kept.execute admitted)
      (fun _ step kept _ => kept.resolvesDrained step) start_sound orderly

/-- A wake during a tick, and the follow-up that answers it. -/
theorem one_tick_at_a_time_followed :
    (run execute start [.run, .wake, .settle 0 .result,
        .clear ⟨0, .settled .result⟩, .resume ⟨0, .cleared .result⟩]).started = 2 ∧
      (run execute start [.run, .wake, .settle 0 .result,
        .clear ⟨0, .settled .result⟩,
        .resume ⟨0, .cleared .result⟩]).flights.length ≤ 1 :=
  ⟨by decide, (one_tick_at_a_time _ (by decide)).1⟩

/-- Two wakes in the window of a settled tick: the first starts a tick, and the
old copy starts another beside it for the second. -/
theorem second_wake_in_window :
    ¬ ∀ steps : List Step, (run execute start steps).flights.length ≤ 1 := by
  intro alone
  exact absurd (alone [.run, .settle 0 .result, .clear ⟨0, .settled .result⟩,
    .wake, .wake, .resume ⟨0, .cleared .result⟩]) (by decide)

end Runs

end Runner

end Service
end Scrum4Me
