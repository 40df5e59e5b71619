import Scrum4Me.Service.Tick

/-!
# Poisoned units

Every stage runs whatever the units before it do, and the stages with a unit or a `try`
for each row attempt all of them. The loops over orphans, leases and outbox rows end
at the first transaction that throws, so that a tick attempts every unit it selects
exactly when in those three lists none but the last throws.
-/

namespace Scrum4Me
namespace Service

open Foundation
open Dispatch (Uuid)

variable {σ ε : Type}

/-- No row but the last throws. -/
def RunsThrough (item : Uuid → Work σ ε Bool) : List Uuid → σ → Prop
  | [], _ => True
  | id :: rest, state =>
      rest = [] ∨ (∃ answer, (item id state).1 = .returned answer) ∧
          RunsThrough item rest (item id state).2

/-- The rows that the loop selects now run through. -/
def Loop.Through (loop : Loop σ ε) (limit : Nat) (state : σ) : Prop :=
  ∀ ids, loop.select limit state = .returned ids → RunsThrough loop.item ids state

/-- The stage, run now, is not cut short. -/
def TickDependencies.Through (deps : TickDependencies σ ε) (tick : Tick σ) :
    Stage → Prop
  | .orphans => ∀ attempts, deps.attempts = some attempts →
      attempts.signedOff.Through requestLimit tick.trace.state
  | .lease => ∀ attempts, deps.attempts = some attempts →
      attempts.expired.Through requestLimit tick.trace.state
  | .delivery => ∀ delivery, deps.delivery = some delivery →
      delivery.Through outboxLimit tick.trace.state
  | _ => True

/-! ## What a stage adds to the log -/

structure Adds (before after : Trace σ) (selected attempted : List Item) : Prop where
  selected : after.selected = before.selected ++ selected
  attempted : after.attempted = before.attempted ++ attempted

theorem Adds.refl (trace : Trace σ) : Adds trace trace [] [] :=
  ⟨(List.append_nil _).symm, (List.append_nil _).symm⟩

theorem Adds.trans
    {first second third : Trace σ} {selected attempted selected' attempted' : List Item}
    (earlier : Adds first second selected attempted)
    (later : Adds second third selected' attempted') :
    Adds first third (selected ++ selected') (attempted ++ attempted') where
  selected := by rw [later.selected, earlier.selected, List.append_assoc]
  attempted := by rw [later.attempted, earlier.attempted, List.append_assoc]

theorem select_adds (stage : Stage) (ids : List Uuid) (trace : Trace σ) :
    Adds trace (trace.select stage ids) (ids.map (Item.mk stage)) [] :=
  ⟨rfl, (List.append_nil _).symm⟩

theorem attempt_adds (stage : Stage) (item : Uuid → Work σ ε α) (id : Uuid) (trace : Trace σ) :
    Adds trace (attempt stage item id trace).2 [] [⟨stage, id⟩] :=
  ⟨(List.append_nil _).symm, rfl⟩

theorem eachTried_adds
    (stage : Stage) (item : Uuid → Work σ ε Bool) (ids : List Uuid) (trace : Trace σ) :
    Adds trace (eachTried stage item ids trace).2 [] (ids.map (Item.mk stage)) := by
  induction ids generalizing trace with
  | nil => exact .refl trace
  | cons id rest ih =>
    have later := (attempt_adds stage item id trace).trans (ih (attempt stage item id trace).2)
    rw [eachTried]
    split <;> exact later

theorem inSequence_adds
    (stage : Stage) (item : Uuid → Work σ ε Bool) (ids : List Uuid) (trace : Trace σ) :
    ∃ done, done <+: ids ∧
      Adds trace (inSequence stage item ids trace).2 [] (done.map (Item.mk stage)) ∧
      (done = ids ↔ RunsThrough item ids trace.state) := by
  induction ids generalizing trace with
  | nil => exact ⟨[], List.prefix_refl [], .refl trace, by simp [RunsThrough]⟩
  | cons id rest ih =>
    have first := attempt_adds stage item id trace
    rw [inSequence]
    split
    case h_1 error threw =>
      refine ⟨[id], ⟨rest, rfl⟩, first, ?_⟩
      have stops : ¬ ∃ answer, (item id trace.state).1 = .returned answer := by
        rintro ⟨answer, returned⟩
        have thrown : (item id trace.state).1 = .threw error := threw
        rw [returned] at thrown
        cases thrown
      simp [RunsThrough, stops, eq_comm]
    case h_2 answer returned =>
      obtain ⟨done, isPrefix, adds, whole⟩ := ih (attempt stage item id trace).2
      refine ⟨id :: done, (List.prefix_cons_inj id).mpr isPrefix,
        first.trans adds, ?_⟩
      have goes : ∃ answer, (item id trace.state).1 = .returned answer := ⟨answer, returned⟩
      rw [List.cons.injEq, RunsThrough]
      refine ⟨fun same => .inr ⟨goes, whole.mp same.2⟩, fun through => ⟨rfl, ?_⟩⟩
      rcases through with rfl | ⟨_, through⟩
      · exact List.prefix_nil.mp isPrefix
      · exact whole.mpr through

namespace Tick

variable {tick : Tick σ}

@[simp] theorem unit_trace (fallback : α) (work : Work (Trace σ) ε α) (tick : Tick σ) :
    (tick.unit fallback work).2.trace = (work tick.trace).2 := by
  rw [unit]
  split <;> rfl

@[simp] theorem unit_began (fallback : α) (work : Work (Trace σ) ε α) (tick : Tick σ) :
    (tick.unit fallback work).2.began = tick.began := by
  rw [unit]
  split <;> rfl

theorem each_adds (stage : Stage) (item : Uuid → Work σ ε Bool) (ids : List Uuid) (tick : Tick σ) :
    Adds tick.trace (Tick.each stage item ids tick).2.trace [] (ids.map (Item.mk stage)) := by
  induction ids generalizing tick with
  | nil => exact .refl tick.trace
  | cons id rest ih =>
    have first := attempt_adds stage item id tick.trace
    rw [← unit_trace false] at first
    exact first.trans (ih _)

@[simp] theorem each_began
    (stage : Stage) (item : Uuid → Work σ ε Bool) (ids : List Uuid) (tick : Tick σ) :
    (Tick.each stage item ids tick).2.began = tick.began := by
  induction ids generalizing tick with
  | nil => rfl
  | cons id rest ih => exact (ih _).trans (unit_began _ _ tick)

/-- A stage with a unit for each row attempts what it selects. -/
theorem selected_adds
    (stage : Stage) (item : Uuid → Work σ ε Bool) (ids : List Uuid) (tick : Tick σ) :
    Adds tick.trace (Tick.each stage item ids (tick.select stage ids)).2.trace
      (ids.map (Item.mk stage)) (ids.map (Item.mk stage)) := by
  have both := (select_adds stage ids tick.trace).trans
    (each_adds stage item ids (tick.select stage ids))
  rw [List.append_nil] at both
  exact both

end Tick

/-! ## One stage -/

/-- The stage attempts no more than it selects, and all of it when the condition
holds. -/
def Runs (before after : Trace σ) (condition : Prop) : Prop :=
  ∃ selected attempted, Adds before after selected attempted ∧
    attempted.length ≤ selected.length ∧ (attempted = selected ↔ condition)

theorem Runs.all
    {before after : Trace σ} {items : List Item} (adds : Adds before after items items) :
    Runs before after True :=
  ⟨items, items, adds, Nat.le_refl _, ⟨fun _ => trivial, fun _ => rfl⟩⟩

theorem Runs.congr
    {before after : Trace σ} {condition other : Prop} (runs : Runs before after condition)
    (same : condition ↔ other) :
    Runs before after other := by
  obtain ⟨selected, attempted, adds, fewer, whole⟩ := runs
  exact ⟨selected, attempted, adds, fewer, whole.trans same⟩

theorem item_injective (stage : Stage) : Function.Injective (Item.mk stage) :=
  fun _ _ same => congrArg Item.id same

/-- A loop in one unit is cut short by a row that throws, unless it is the last. -/
theorem Loop.run_runs (loop : Loop σ ε) (stage : Stage) (limit : Nat) (trace : Trace σ) :
    Runs trace (loop.run stage limit trace).2 (loop.Through limit trace.state) := by
  rw [Loop.run, Loop.Through]
  cases listed : loop.select limit trace.state with
  | threw error =>
    refine (Runs.all (.refl trace)).congr ⟨fun _ ids selected => ?_, fun _ => trivial⟩
    cases selected
  | returned ids =>
    obtain ⟨done, isPrefix, adds, whole⟩ :=
      inSequence_adds stage loop.item ids (trace.select stage ids)
    have both := (select_adds stage ids trace).trans adds
    rw [List.append_nil, List.nil_append] at both
    refine ⟨_, _, both, ?_, ?_⟩
    · rw [List.length_map, List.length_map]
      exact isPrefix.length_le
    · rw [(List.map_injective_iff.mpr (item_injective stage)).eq_iff, whole]
      constructor
      · rintro through _ ⟨⟩
        exact through
      · exact fun through => through ids rfl

theorem Loop.runTried_runs (loop : Loop σ ε) (stage : Stage) (limit : Nat) (trace : Trace σ) :
    Runs trace (loop.runTried stage limit trace).2 True := by
  rw [Loop.runTried]
  split
  · exact .all (.refl trace)
  · rename_i ids _
    have both := (select_adds stage ids trace).trans
      (eachTried_adds stage loop.item ids (trace.select stage ids))
    rw [List.append_nil] at both
    exact .all both

section Stages

variable (deps : TickDependencies σ ε) (tick : Tick σ)

theorem list_trace (query : σ → Answer ε (List Uuid)) (tick : Tick σ) :
    (tick.list query).2.trace = tick.trace := by
  rw [Tick.list, Tick.unit_trace]

theorem expire_runs : Runs tick.trace (deps.expire tick).trace True := by
  have adds := Tick.selected_adds .expire deps.retireExpiredCandidate
    (tick.list (deps.expiredCandidates requestLimit)).1
    (tick.list (deps.expiredCandidates requestLimit)).2
  rw [list_trace] at adds
  exact .all adds

theorem listWaiting_runs : Runs tick.trace (deps.listWaiting tick).trace True := by
  have same : (deps.listWaiting tick).trace = tick.trace := list_trace _ tick
  rw [same]
  exact .all (.refl tick.trace)

theorem sources_runs : Runs tick.trace (deps.sources tick).trace True := by
  rw [TickDependencies.sources]
  cases deps.prepareRequestSources with
  | none => exact .all (.refl tick.trace)
  | some prepare => exact .all (Tick.selected_adds .sources _ tick.waiting tick)

theorem reserve_runs : Runs tick.trace (deps.reserve tick).trace True :=
  .all (Tick.selected_adds .reserve _ tick.waiting tick)

theorem orphans_runs : Runs tick.trace (deps.orphans tick).trace (deps.Through tick .orphans) := by
  rw [TickDependencies.orphans, TickDependencies.Through]
  cases deps.attempts with
  | none => exact (Runs.all (.refl tick.trace)).congr (by simp)
  | some attempts =>
    have runs := attempts.signedOff.run_runs .orphans requestLimit tick.trace
    rw [← Tick.unit_trace []] at runs
    exact runs.congr (by simp)

theorem lease_runs : Runs tick.trace (deps.lease tick).trace (deps.Through tick .lease) := by
  rw [TickDependencies.lease, TickDependencies.Through]
  cases deps.attempts with
  | none => exact (Runs.all (.refl tick.trace)).congr (by simp)
  | some attempts =>
    have runs := attempts.expired.run_runs .lease requestLimit tick.trace
    rw [← Tick.unit_trace []] at runs
    exact runs.congr (by simp)

theorem publication_runs : Runs tick.trace (deps.publication tick).trace True := by
  rw [TickDependencies.publication]
  cases deps.publications with
  | none => exact .all (.refl tick.trace)
  | some publications =>
    have runs := publications.runTried_runs .publication requestLimit tick.trace
    rw [← Tick.unit_trace []] at runs
    exact runs

theorem deliver_runs : Runs tick.trace (deps.deliver tick).trace (deps.Through tick .delivery) := by
  rw [TickDependencies.deliver, TickDependencies.Through]
  cases deps.delivery with
  | none => exact (Runs.all (.refl tick.trace)).congr (by simp)
  | some delivery =>
    have runs := delivery.run_runs .delivery outboxLimit tick.trace
    rw [← Tick.unit_trace [false]] at runs
    exact runs.congr (by simp)

theorem maintain_runs : Runs tick.trace (deps.maintain tick).trace True := by
  have same : ∀ other : Trace σ, other.selected = tick.trace.selected →
      other.attempted = tick.trace.attempted → Runs tick.trace other True := by
    intro other selected attempted
    have adds : Adds tick.trace other [] [] :=
      ⟨by rw [selected, List.append_nil], by rw [attempted, List.append_nil]⟩
    exact .all adds
  rw [TickDependencies.maintain]
  cases deps.maintenance with
  | none => exact same _ rfl rfl
  | some maintenance =>
    rw [Option.elim_some]
    split
    · exact same _ rfl rfl
    · cases maintenance.retainThreads with
      | _ => exact same _ (by simp) (by simp)

/-- Every stage attempts what it selects, unless one of the three loops is cut
short. -/
theorem stage_runs (stage : Stage) :
    Runs tick.trace (deps.stage stage tick).trace (deps.Through tick stage) := by
  cases stage with
  | expire => exact expire_runs deps tick
  | waiting => exact listWaiting_runs deps tick
  | sources => exact sources_runs deps tick
  | reserve => exact reserve_runs deps tick
  | orphans => exact orphans_runs deps tick
  | lease => exact lease_runs deps tick
  | publication => exact publication_runs deps tick
  | delivery => exact deliver_runs deps tick
  | maintenance => exact maintain_runs deps tick

/-- No stage takes back that an earlier one began. -/
theorem stage_began (stage : Stage) : (deps.stage stage tick).began = tick.began := by
  cases stage with
  | expire => simp [TickDependencies.stage, TickDependencies.expire, Tick.list,
      Tick.select]
  | waiting => simp [TickDependencies.stage, TickDependencies.listWaiting, Tick.list]
  | sources =>
    rw [TickDependencies.stage, TickDependencies.sources]
    cases deps.prepareRequestSources <;> simp [Tick.select]
  | reserve => simp [TickDependencies.stage, TickDependencies.reserve, Tick.select]
  | orphans =>
    rw [TickDependencies.stage, TickDependencies.orphans]
    cases deps.attempts <;> simp
  | lease =>
    rw [TickDependencies.stage, TickDependencies.lease]
    cases deps.attempts <;> simp
  | publication =>
    rw [TickDependencies.stage, TickDependencies.publication]
    cases deps.publications <;> simp
  | delivery =>
    rw [TickDependencies.stage, TickDependencies.deliver]
    cases deps.delivery <;> simp
  | maintenance =>
    rw [TickDependencies.stage, TickDependencies.maintain]
    cases deps.maintenance with
    | none => rfl
    | some maintenance =>
      rw [Option.elim_some]
      split
      · rfl
      · cases maintenance.retainThreads <;> simp

end Stages

/-! ## The whole tick -/

theorem run_began (deps : TickDependencies σ ε) (stages : List Stage) (tick : Tick σ) :
    (run deps.next tick stages).began = tick.began ++ stages := by
  induction stages generalizing tick with
  | nil => exact (List.append_nil _).symm
  | cons stage rest ih =>
    rw [run_cons, ih, TickDependencies.next, stage_began, List.append_assoc]
    rfl

theorem run_runs (deps : TickDependencies σ ε) (stages : List Stage) (tick : Tick σ) :
    Runs tick.trace (run deps.next tick stages).trace
      (EveryStep deps.next deps.Through tick stages) := by
  induction stages generalizing tick with
  | nil => exact (Runs.all (.refl tick.trace)).congr ⟨fun _ => trivial, fun _ => trivial⟩
  | cons stage rest ih =>
    obtain ⟨selected, attempted, adds, fewer, whole⟩ :=
      stage_runs deps { tick with began := tick.began ++ [stage] } stage
    obtain ⟨selected', attempted', adds', fewer', whole'⟩ := ih (deps.next tick stage)
    refine ⟨_, _, adds.trans adds', ?_, ?_⟩
    · rw [List.length_append, List.length_append]
      exact Nat.add_le_add fewer fewer'
    · rw [everyStep_cons, ← whole']
      refine Iff.trans ?_ (and_congr_left' whole)
      constructor
      · intro same
        have lengths := congrArg List.length same
        rw [List.length_append, List.length_append] at lengths
        exact List.append_inj same (by omega)
      · rintro ⟨rfl, rfl⟩
        rfl

/-- A tick runs all of its stages, and it attempts every unit that it selects, in
order, exactly when in the lists of orphans, leases and outbox rows no row but the
last throws. -/
theorem tick_attempts_all (deps : TickDependencies σ ε) (state : σ) (nextMaintenanceAt : Nat) :
    ((dispatchTick deps state nextMaintenanceAt).began = Stage.all ∧
        (dispatchTick deps state nextMaintenanceAt).trace.attempted =
          (dispatchTick deps state nextMaintenanceAt).trace.selected) ↔
      EveryStep deps.next deps.Through (Tick.start state nextMaintenanceAt) Stage.all := by
  obtain ⟨selected, attempted, adds, _, whole⟩ :=
    run_runs deps Stage.all (Tick.start state nextMaintenanceAt)
  have began := run_began deps Stage.all (Tick.start state nextMaintenanceAt)
  rw [← whole]
  rw [dispatchTick, began, adds.selected, adds.attempted]
  exact ⟨fun both => both.2, fun same => ⟨rfl, same⟩⟩

/-! ## A poisoned lease -/

/-- Two leases have expired; the transaction of the first throws. -/
def poisonedLease : TickDependencies Unit Unit where
  expiredCandidates _ _ := .returned []
  retireExpiredCandidate _ state := (.returned false, state)
  waitingRequestIds _ _ := .returned []
  prepareRequestSources := none
  reserveRequest _ state := (.returned none, state)
  attempts := some
    { signedOff :=
        { select := fun _ _ => .returned []
          item := fun _ state => (.returned false, state) }
      expired :=
        { select := fun _ _ => .returned [1, 2]
          item := fun id state =>
            (if id = 1 then .threw () else .returned true, state) } }
  publications := none
  delivery := none
  maintenance := none

/-- The lease behind the poisoned one is selected and not attempted. -/
theorem poisoned_lease_starves :
    (⟨.lease, 2⟩ : Item) ∈ (dispatchTick poisonedLease () 0).trace.selected ∧
      (⟨.lease, 2⟩ : Item) ∉ (dispatchTick poisonedLease () 0).trace.attempted := by
  have selected : (dispatchTick poisonedLease () 0).trace.selected =
      [⟨.lease, 1⟩, ⟨.lease, 2⟩] := rfl
  have attempted : (dispatchTick poisonedLease () 0).trace.attempted = [⟨.lease, 1⟩] := rfl
  rw [selected, attempted]
  decide

end Service
end Scrum4Me
