import Scrum4Me.Service.Listener

/-!
# One session at a time

A `LISTEN` that fails leaves its client open. In the runs in which none fails, one
call of `open`, one live client or one retry is handed on at every failure, a
signal leads to the wake of its window, and a stop ends every client.
-/

namespace Scrum4Me
namespace Service
namespace Listener

open Foundation

/-! ## What is asked of a run -/

/-- `start` is called once. -/
def CalledOnce (listener : Listener) (step : Step) : Prop :=
  step = .start → listener.starts = 0

instance (listener : Listener) (step : Step) :
    Decidable (listener.CalledOnce step) :=
  inferInstanceAs (Decidable (_ → _))

/-- No `LISTEN` fails. -/
def Listens (listener : Listener) (step : Step) : Prop :=
  ∀ client ∈ listener.openings.filterMap Opening.client?, step ≠ .listenFails client

instance (listener : Listener) (step : Step) :
    Decidable (listener.Listens step) :=
  inferInstanceAs (Decidable (∀ _ ∈ _, _))

/-- The clients that `connect` returned and that have not been ended. -/
def openClients (listener : Listener) : List Nat :=
  (List.range listener.connected).filter fun client => client ∉ listener.ended

/-- Somebody listens or sees to it. -/
def Attended (listener : Listener) : Prop :=
  (∃ client ∈ listener.openClients,
      listener.client = some client ∧ client ∈ listener.handled) ∨
    listener.openings ≠ [] ∨ listener.timers.length = 1

/-! ## The coalescing window -/

structure Windowed (listener : Listener) : Prop where
  windows : listener.windows = listener.cancelWake.toList
  fresh : ∀ window ∈ listener.windows,
    window < listener.opened ∧ window ∉ listener.woken
  woken : ∀ window ∈ listener.woken, window < listener.opened
  once : listener.woken.Nodup
  halted : listener.stopped = true → listener.cancelWake = none

theorem initial_windowed : initial.Windowed where
  windows := rfl
  fresh _ member := absurd member List.not_mem_nil
  woken _ member := absurd member List.not_mem_nil
  once := .nil
  halted _ := rfl

section Windows

variable {listener after : Listener}

/-- The window and its ghosts are left alone. -/
structure SameWindows (listener after : Listener) : Prop where
  windows : after.windows = listener.windows
  cancelWake : after.cancelWake = listener.cancelWake
  woken : after.woken = listener.woken
  opened : after.opened = listener.opened
  stopped : after.stopped = listener.stopped

theorem SameWindows.openSession (same : SameWindows listener after) :
    SameWindows listener after.openSession := by
  rw [Listener.openSession]
  split
  · exact same
  · exact ⟨same.windows, same.cancelWake, same.woken, same.opened, same.stopped⟩

theorem SameWindows.retry (same : SameWindows listener after) :
    SameWindows listener after.retry := by
  rw [Listener.retry]
  split
  · exact same
  · exact ⟨same.windows, same.cancelWake, same.woken, same.opened, same.stopped⟩

/-- The steps that concern the window. -/
def Step.OfWindow : Step → Prop
  | .stop | .notification _ _ | .windowCloses _ => True
  | _ => False

theorem execute_sameWindows {step : Step} (apart : ¬ step.OfWindow) :
    SameWindows listener (listener.execute step) := by
  have same : SameWindows listener listener := ⟨rfl, rfl, rfl, rfl, rfl⟩
  cases step with
  | start =>
    rw [execute]
    exact .openSession ⟨rfl, rfl, rfl, rfl, rfl⟩
  | stop => exact absurd trivial apart
  | connected =>
    rw [execute]
    split
    · exact ⟨rfl, rfl, rfl, rfl, rfl⟩
    · exact same
  | listens client =>
    rw [execute]
    split
    · rw [listen]
      split <;> exact ⟨rfl, rfl, rfl, rfl, rfl⟩
    · exact same
  | notification client message => exact absurd trivial apart
  | emits client reason =>
    rw [execute]
    split
    · rw [drop]
      split
      · exact same
      · exact .retry ⟨rfl, rfl, rfl, rfl, rfl⟩
    · exact same
  | windowCloses window => exact absurd trivial apart
  | timerFires timer =>
    rw [execute]
    split
    · exact .openSession ⟨rfl, rfl, rfl, rfl, rfl⟩
    · exact same
  | _ =>
    rw [execute]
    split
    · exact .retry ⟨rfl, rfl, rfl, rfl, rfl⟩
    · exact same

theorem Windowed.congr (windowed : listener.Windowed) (same : SameWindows listener after) :
    after.Windowed := by
  constructor
  · rw [same.windows, same.cancelWake]
    exact windowed.windows
  · rw [same.windows, same.woken, same.opened]
    exact windowed.fresh
  · rw [same.woken, same.opened]
    exact windowed.woken
  · rw [same.woken]
    exact windowed.once
  · rw [same.cancelWake, same.stopped]
    exact windowed.halted

theorem Windowed.signal (windowed : listener.Windowed) : listener.signal.Windowed := by
  rw [Listener.signal]
  split
  · exact windowed
  · rename_i free
    have closed : listener.cancelWake = none := by_contra fun waiting => free (.inl waiting)
    have windows : listener.windows = [] := by
      rw [windowed.windows, closed]
      rfl
    constructor
    · simp [windows]
    · intro window member
      rw [windows] at member
      obtain rfl := List.mem_singleton.mp member
      exact ⟨Nat.lt_succ_self _, fun early => Nat.lt_irrefl _ (windowed.woken _ early)⟩
    · exact fun window early => Nat.lt_succ_of_lt (windowed.woken window early)
    · exact windowed.once
    · exact fun stopped => absurd (.inr stopped) free

/-- An open window is the one that `cancelWake` would cancel. -/
theorem Windowed.alone
    (windowed : listener.Windowed) {window : Nat} (member : window ∈ listener.windows) :
    listener.windows = [window] ∧ listener.cancelWake = some window := by
  rw [windowed.windows] at member ⊢
  rw [Option.mem_toList.mp member]
  exact ⟨rfl, rfl⟩

theorem Windowed.close (windowed : listener.Windowed) (window : Nat) :
    (listener.execute (.windowCloses window)).Windowed := by
  rw [Listener.execute]
  split
  case isFalse => exact windowed
  case isTrue member =>
    obtain ⟨windows, waiting⟩ := windowed.alone member
    split
    case isTrue stopped =>
      rw [windowed.halted stopped] at waiting
      cases waiting
    case isFalse going =>
      constructor
      · simp [windows]
      · simp [windows]
      · intro other woken
        rcases List.mem_cons.mp woken with rfl | woken
        · exact (windowed.fresh _ member).1
        · exact windowed.woken other woken
      · exact List.nodup_cons.mpr ⟨(windowed.fresh window member).2, windowed.once⟩
      · exact fun _ => rfl

theorem Windowed.stop (windowed : listener.Windowed) : listener.stop.Windowed where
  windows := by
    rw [Listener.stop, windowed.windows]
    cases listener.cancelWake <;> simp
  fresh window member := windowed.fresh window (List.mem_of_mem_filter member)
  woken := windowed.woken
  once := windowed.once
  halted _ := rfl

theorem Windowed.execute (windowed : listener.Windowed) (step : Step) :
    (listener.execute step).Windowed := by
  cases step
  case stop => exact windowed.stop
  case notification client message =>
    rw [Listener.execute]
    split
    · exact windowed.signal
    · exact windowed
  case windowCloses window => exact windowed.close window
  all_goals exact windowed.congr (execute_sameWindows not_false)

end Windows

/-! ## The sessions -/

/-- The clients that the listener still has to end. -/
def sessions (listener : Listener) : List Nat :=
  listener.client.toList ++ listener.openings.filterMap Opening.client?

structure Sound (listener : Listener) : Prop where
  timers : listener.timers.map Timer.number = listener.retryTimer.toList
  handled : listener.handled = listener.client.toList
  /-- One of client, opening and retry. -/
  going : listener.stopped = false →
    listener.client.toList.length + listener.openings.length +
      listener.timers.length = listener.starts
  halted : listener.stopped = true → listener.client = none ∧
    listener.retryTimer = none ∧ listener.openings.length ≤ 1
  once : listener.starts ≤ 1
  kept : ∀ client < listener.connected, client ∉ listener.ended →
    client ∈ listener.sessions
  alive : ∀ client ∈ listener.sessions,
    client < listener.connected ∧ client ∉ listener.ended
  ended : ∀ client ∈ listener.ended, client < listener.connected

theorem initial_sound : initial.Sound where
  timers := rfl
  handled := rfl
  going _ := rfl
  halted stopped := Bool.noConfusion stopped
  once := Nat.zero_le _
  kept _ below := absurd below (Nat.not_lt_zero _)
  alive _ member := absurd member List.not_mem_nil
  ended _ member := absurd member List.not_mem_nil

section Sessions

variable {listener after : Listener}

theorem Sound.congr (sound : listener.Sound) (timers : after.timers = listener.timers)
    (retryTimer : after.retryTimer = listener.retryTimer)
    (handled : after.handled = listener.handled) (client : after.client = listener.client)
    (openings : after.openings = listener.openings)
    (stopped : after.stopped = listener.stopped) (starts : after.starts = listener.starts)
    (connected : after.connected = listener.connected) (ended : after.ended = listener.ended) :
    after.Sound := by
  have sessions : after.sessions = listener.sessions := by
    rw [Listener.sessions, client, openings]
    rfl
  constructor
  · rw [timers, retryTimer]
    exact sound.timers
  · rw [handled, client]
    exact sound.handled
  · rw [stopped, client, openings, timers, starts]
    exact sound.going
  · rw [stopped, client, retryTimer, openings]
    exact sound.halted
  · rw [starts]
    exact sound.once
  · rw [connected, ended, sessions]
    exact sound.kept
  · rw [connected, ended, sessions]
    exact sound.alive
  · rw [ended, connected]
    exact sound.ended

/-- Without a session to end, all clients have been ended. -/
theorem Sound.mem_ended (sound : listener.Sound) (none : listener.sessions = []) {client : Nat}
    (below : client < listener.connected) :
    client ∈ listener.ended := by
  by_contra still
  have member := sound.kept client below still
  rw [none] at member
  exact List.not_mem_nil member

theorem Sound.alone_opening
    (sound : listener.Sound) {opening : Opening} (member : opening ∈ listener.openings) :
    listener.openings = [opening] ∧ listener.client = none ∧ listener.timers = [] := by
  have positive := List.length_pos_of_mem member
  cases stopped : listener.stopped with
  | true =>
    obtain ⟨noClient, noTimer, one⟩ := sound.halted stopped
    have noTimers := sound.timers
    rw [noTimer] at noTimers
    obtain ⟨other, only⟩ := List.length_eq_one_iff.mp (Nat.le_antisymm one positive)
    rw [only] at member
    rw [List.mem_singleton.mp member]
    exact ⟨only, noClient, List.map_eq_nil_iff.mp noTimers⟩
  | false =>
    have one := sound.going stopped
    have once := sound.once
    obtain ⟨other, only⟩ := List.length_eq_one_iff.mp (show listener.openings.length = 1 by omega)
    rw [only] at member
    rw [List.mem_singleton.mp member]
    refine ⟨only, ?_, ?_⟩
    · apply Option.toList_eq_nil_iff.mp
      apply List.eq_nil_of_length_eq_zero
      omega
    · apply List.eq_nil_of_length_eq_zero
      omega

theorem Sound.alone_client
    (sound : listener.Sound) {client : Nat} (live : listener.client = some client) :
    listener.stopped = false ∧ listener.openings = [] ∧ listener.timers = [] ∧
      listener.starts = 1 := by
  have going : listener.stopped = false := by
    apply Bool.eq_false_iff.mpr
    intro stopped
    rw [(sound.halted stopped).1] at live
    cases live
  have one := sound.going going
  have once := sound.once
  rw [live, Option.toList_some, List.length_singleton] at one
  refine ⟨going, ?_, ?_, ?_⟩
  · apply List.eq_nil_of_length_eq_zero
    omega
  · apply List.eq_nil_of_length_eq_zero
    omega
  · omega

theorem Sound.alone_timer
    (sound : listener.Sound) {timer : Timer} (member : timer ∈ listener.timers) :
    listener.stopped = false ∧ listener.timers = [timer] ∧
      listener.client = none ∧ listener.openings = [] ∧ listener.starts = 1 := by
  have positive := List.length_pos_of_mem member
  have going : listener.stopped = false := by
    apply Bool.eq_false_iff.mpr
    intro stopped
    have noTimers := sound.timers
    rw [(sound.halted stopped).2.1] at noTimers
    rw [List.map_eq_nil_iff.mp noTimers] at member
    exact List.not_mem_nil member
  have one := sound.going going
  have once := sound.once
  obtain ⟨other, only⟩ := List.length_eq_one_iff.mp (show listener.timers.length = 1 by omega)
  rw [only] at member
  rw [List.mem_singleton.mp member]
  refine ⟨going, only, ?_, ?_, ?_⟩
  · apply Option.toList_eq_nil_iff.mp
    apply List.eq_nil_of_length_eq_zero
    omega
  · apply List.eq_nil_of_length_eq_zero
    omega
  · omega

end Sessions

/-! ## Handing on -/

/-- Nothing is in progress, and every client has been ended. -/
structure Idle (listener : Listener) : Prop where
  client : listener.client = none
  openings : listener.openings = []
  timers : listener.timers = []
  retryTimer : listener.retryTimer = none
  handled : listener.handled = []
  once : listener.starts ≤ 1
  started : listener.stopped = false → listener.starts = 1
  allEnded : ∀ client < listener.connected, client ∈ listener.ended
  ended : ∀ client ∈ listener.ended, client < listener.connected

section Handing

variable {listener after : Listener}

theorem Idle.sound (idle : listener.Idle) (stopped : listener.stopped = true) : listener.Sound where
  timers := by
    rw [idle.timers, idle.retryTimer]
    rfl
  handled := by
    rw [idle.handled, idle.client]
    rfl
  going going := by
    rw [stopped] at going
    exact Bool.noConfusion going
  halted _ := ⟨idle.client, idle.retryTimer, by
    rw [idle.openings]
    exact Nat.zero_le _⟩
  once := idle.once
  kept client below still := absurd (idle.allEnded client below) still
  alive client member := by
    rw [sessions, idle.client, idle.openings] at member
    exact absurd member List.not_mem_nil
  ended := idle.ended

/-- A call of `open` takes over. -/
theorem Idle.openSession (idle : listener.Idle) : listener.openSession.Sound := by
  rw [Listener.openSession]
  split
  case isTrue blocked => exact idle.sound (blocked.resolve_right fun live => live idle.client)
  case isFalse free =>
    have going : ¬ listener.stopped = true := fun halts => free (.inl halts)
    constructor
    · rw [idle.timers, idle.retryTimer]
      rfl
    · rw [idle.handled, idle.client]
      rfl
    · intro _
      simp [idle.client, idle.openings, idle.timers, idle.started (Bool.eq_false_iff.mpr going)]
    · exact fun halts => absurd halts going
    · exact idle.once
    · exact fun client below still => absurd (idle.allEnded client below) still
    · intro client member
      rw [sessions, idle.client, idle.openings] at member
      exact absurd member List.not_mem_nil
    · exact idle.ended

/-- A retry takes over. -/
theorem Idle.retry (idle : listener.Idle) : listener.retry.Sound := by
  rw [Listener.retry]
  split
  case isTrue stopped => exact idle.sound stopped
  case isFalse going =>
    constructor
    · rw [idle.timers]
      rfl
    · rw [idle.handled, idle.client]
      rfl
    · intro _
      simp [idle.client, idle.openings, idle.timers, idle.started (Bool.eq_false_iff.mpr going)]
    · exact fun halts => absurd halts going
    · exact idle.once
    · exact fun client below still => absurd (idle.allEnded client below) still
    · intro client member
      rw [sessions, idle.client, idle.openings] at member
      exact absurd member List.not_mem_nil
    · exact idle.ended

theorem Sound.retryTimer_eq_none (sound : listener.Sound) (timers : listener.timers = []) :
    listener.retryTimer = none := by
  have none := sound.timers
  rw [timers] at none
  exact Option.toList_eq_nil_iff.mp none.symm

theorem Sound.start (sound : listener.Sound) (first : listener.starts = 0) :
    (listener.execute .start).Sound := by
  rw [execute]
  by_cases stopped : listener.stopped = true
  · rw [Listener.openSession, if_pos (.inl stopped)]
    exact
      { timers := sound.timers
        handled := sound.handled
        going := fun going => absurd stopped (Bool.eq_false_iff.mp going)
        halted := sound.halted
        once := Nat.le_of_eq (by rw [first])
        kept := sound.kept
        alive := sound.alive
        ended := sound.ended }
  · have nothing := sound.going (Bool.eq_false_iff.mpr stopped)
    rw [first] at nothing
    have noClient : listener.client = none := by
      apply Option.toList_eq_nil_iff.mp
      apply List.eq_nil_of_length_eq_zero
      omega
    have noOpenings : listener.openings = [] := by
      apply List.eq_nil_of_length_eq_zero
      omega
    have noTimers : listener.timers = [] := by
      apply List.eq_nil_of_length_eq_zero
      omega
    have none : listener.sessions = [] := by
      rw [sessions, noClient, noOpenings]
      rfl
    apply Idle.openSession
    exact
      { client := noClient
        openings := noOpenings
        timers := noTimers
        retryTimer := sound.retryTimer_eq_none noTimers
        handled := by
          rw [sound.handled, noClient]
          rfl
        once := Nat.le_of_eq (by rw [first])
        started := fun _ => by rw [first]
        allEnded := fun _ below => sound.mem_ended none below
        ended := sound.ended }

theorem Sound.timerFires (sound : listener.Sound) (timer : Timer) :
    (listener.execute (.timerFires timer)).Sound := by
  rw [execute]
  split
  case isFalse => exact sound
  case isTrue member =>
    obtain ⟨_, timers, client, openings, starts⟩ := sound.alone_timer member
    have none : listener.sessions = [] := by
      rw [sessions, client, openings]
      rfl
    apply Idle.openSession
    exact
      { client := client
        openings := openings
        timers := by simp [timers]
        retryTimer := rfl
        handled := by
          rw [sound.handled, client]
          rfl
        once := sound.once
        started := fun _ => starts
        allEnded := fun _ below => sound.mem_ended none below
        ended := sound.ended }

/-- A call of `open` in progress means that `start` was called. -/
theorem Sound.started
    (sound : listener.Sound) {opening : Opening} (member : opening ∈ listener.openings)
    (going : listener.stopped = false) :
    listener.starts = 1 := by
  obtain ⟨openings, client, timers⟩ := sound.alone_opening member
  have one := sound.going going
  rw [openings, client, timers] at one
  exact one.symm

theorem Sound.connectFails (sound : listener.Sound) : (listener.execute .connectFails).Sound := by
  rw [execute]
  split
  case isFalse => exact sound
  case isTrue member =>
    obtain ⟨openings, client, timers⟩ := sound.alone_opening member
    have none : listener.sessions = [] := by
      rw [sessions, client, openings]
      rfl
    apply Idle.retry
    exact
      { client := client
        openings := by simp [openings]
        timers := timers
        retryTimer := sound.retryTimer_eq_none timers
        handled := by
          rw [sound.handled, client]
          rfl
        once := sound.once
        started := fun going => sound.started member going
        allEnded := fun _ below => sound.mem_ended none below
        ended := sound.ended }

theorem Sound.connected (sound : listener.Sound) : (listener.execute .connected).Sound := by
  rw [execute]
  split
  case isFalse => exact sound
  case isTrue member =>
    obtain ⟨openings, client, timers⟩ := sound.alone_opening member
    have none : listener.sessions = [] := by
      rw [sessions, client, openings]
      rfl
    constructor
    · exact sound.timers
    · exact sound.handled
    · intro going
      simp [client, openings, timers, sound.started member going]
    · intro stopped
      simp [client, openings, (sound.halted stopped).2.1]
    · exact sound.once
    · intro other below still
      rcases Nat.lt_succ_iff_lt_or_eq.mp below with before | rfl
      · exact absurd (sound.mem_ended none before) still
      · simp [sessions, client, openings, Opening.client?]
    · intro other found
      have new : other = listener.connected := by
        simpa [sessions, client, openings, Opening.client?] using found
      rw [new]
      exact ⟨Nat.lt_succ_self _, fun early => Nat.lt_irrefl _ (sound.ended _ early)⟩
    · exact fun other early => Nat.lt_succ_of_lt (sound.ended other early)

theorem Sound.listens (sound : listener.Sound) (next : Nat) :
    (listener.execute (.listens next)).Sound := by
  rw [execute]
  split
  case isFalse => exact sound
  case isTrue member =>
    obtain ⟨openings, client, timers⟩ := sound.alone_opening member
    have only : listener.sessions = [next] := by simp [sessions, client, openings, Opening.client?]
    obtain ⟨below, unended⟩ := sound.alive next (by
      rw [only]
      exact List.mem_singleton_self next)
    rw [listen]
    split
    case isTrue stopped =>
      refine Idle.sound ?_ (by exact stopped)
      exact
        { client := client
          openings := by simp [openings]
          timers := timers
          retryTimer := sound.retryTimer_eq_none timers
          handled := by
            rw [sound.handled, client]
            rfl
          once := sound.once
          started := fun going => sound.started member going
          allEnded := by
            intro other isBelow
            by_contra still
            obtain ⟨differs, early⟩ := not_or.mp (mt List.mem_cons.mpr still)
            have isNext := sound.kept other isBelow early
            rw [only] at isNext
            exact differs (List.mem_singleton.mp isNext)
          ended := by
            intro other early
            rcases List.mem_cons.mp early with rfl | early
            · exact below
            · exact sound.ended other early }
    case isFalse going =>
      have sessions' : ({ listener with
          openings := listener.openings.erase (.listening next)
          client := some next } : Listener).sessions = [next] := by
        simp [sessions, openings]
      constructor
      · exact sound.timers
      · simp [sound.handled, client]
      · intro _
        simp [openings, timers, sound.started member (Bool.eq_false_iff.mpr going)]
      · exact fun stopped => absurd stopped going
      · exact sound.once
      · intro other isBelow still
        have kept := sound.kept other isBelow still
        rw [only] at kept
        exact sessions' ▸ kept
      · intro other found
        have isNext : other ∈ [next] := sessions' ▸ found
        rw [List.mem_singleton.mp isNext]
        exact ⟨below, unended⟩
      · exact sound.ended

theorem Sound.emits (sound : listener.Sound) (next : Nat) (reason : Reason) :
    (listener.execute (.emits next reason)).Sound := by
  rw [execute]
  split
  case isFalse => exact sound
  case isTrue member =>
    rw [sound.handled] at member
    have live := Option.mem_toList.mp member
    obtain ⟨_, openings, timers, starts⟩ := sound.alone_client live
    have only : listener.sessions = [next] := by
      rw [sessions, live, openings]
      rfl
    have below := (sound.alive next (by
      rw [only]
      exact List.mem_singleton_self next)).1
    rw [drop, if_neg fun other => other live]
    apply Idle.retry
    exact
      { client := rfl
        openings := openings
        timers := timers
        retryTimer := sound.retryTimer_eq_none timers
        handled := by
          rw [sound.handled, live]
          simp
        once := sound.once
        started := fun _ => starts
        allEnded := by
          intro other isBelow
          by_contra still
          obtain ⟨differs, early⟩ := not_or.mp (mt List.mem_cons.mpr still)
          have isNext := sound.kept other isBelow early
          rw [only] at isNext
          exact differs (List.mem_singleton.mp isNext)
        ended := by
          intro other early
          rcases List.mem_cons.mp early with rfl | early
          · exact below
          · exact sound.ended other early }

theorem Sound.stop (sound : listener.Sound) : listener.stop.Sound where
  timers := by
    have noTimers : listener.stop.timers = [] := by
      apply List.filter_eq_nil_iff.mpr
      intro timer member armed
      have number : timer.number ∈ listener.timers.map Timer.number := List.mem_map_of_mem member
      rw [sound.timers] at number
      exact of_decide_eq_true armed (Option.mem_toList.mp number)
    rw [noTimers]
    rfl
  handled := by
    apply List.filter_eq_nil_iff.mpr
    intro client member handles
    rw [sound.handled] at member
    exact of_decide_eq_true handles (Option.mem_toList.mp member)
  going going := Bool.noConfusion going
  halted _ := by
    refine ⟨rfl, rfl, ?_⟩
    cases stopped : listener.stopped with
    | true => exact (sound.halted stopped).2.2
    | false =>
      have one := sound.going stopped
      have once := sound.once
      change listener.openings.length ≤ 1
      omega
  once := sound.once
  kept client below still := by
    obtain ⟨notLive, early⟩ := not_or.mp (mt List.mem_append.mpr still)
    have member := sound.kept client below early
    exact (List.mem_append.mp member).resolve_left notLive
  alive client member := by
    have opening : client ∈ listener.openings.filterMap Opening.client? := member
    obtain ⟨below, early⟩ := sound.alive client (List.mem_append_right _ opening)
    refine ⟨below, fun found => ?_⟩
    rcases List.mem_append.mp found with live | found
    · have openings := (sound.alone_client (Option.mem_toList.mp live)).2.1
      rw [openings] at opening
      exact List.not_mem_nil opening
    · exact early found
  ended client found := by
    rcases List.mem_append.mp found with live | found
    · exact (sound.alive client (List.mem_append_left _ live)).1
    · exact sound.ended client found

/-- Every step but a failing `LISTEN` hands on one of client, opening and retry. -/
theorem Sound.execute (sound : listener.Sound) {step : Step} (once : listener.CalledOnce step)
    (listens : listener.Listens step) :
    (listener.execute step).Sound := by
  cases step with
  | start => exact sound.start (once rfl)
  | stop => exact sound.stop
  | connected => exact sound.connected
  | connectFails => exact sound.connectFails
  | listens client => exact sound.listens client
  | listenFails client =>
    rw [Listener.execute]
    split
    case isTrue member =>
      exact absurd rfl (listens client (List.mem_filterMap.mpr ⟨_, member, rfl⟩))
    case isFalse => exact sound
  | notification client message =>
    rw [Listener.execute]
    split
    · rw [Listener.signal]
      split
      · exact sound
      · exact sound.congr rfl rfl rfl rfl rfl rfl rfl rfl rfl
    · exact sound
  | emits client reason => exact sound.emits client reason
  | windowCloses window =>
    rw [Listener.execute]
    split
    · split <;> exact sound.congr rfl rfl rfl rfl rfl rfl rfl rfl rfl
    · exact sound
  | timerFires timer => exact sound.timerFires timer

end Handing

/-! ## Signals and stops -/

section Signals

variable {listener : Listener}

/-- The window still waits, or it has called `wake`; a stop cancels it. -/
def Answers (listener : Listener) (window : Nat) : Prop :=
  listener.stopped = true ∨ window ∈ listener.windows ∨ window ∈ listener.woken

/-- A valid notification of the live client has a window from then on. -/
theorem Windowed.signal_opens (windowed : listener.Windowed) (going : listener.stopped = false) :
    ∃ window ∈ listener.signal.windows, window ∉ listener.signal.woken := by
  have kept := windowed.signal
  have waits : listener.signal.cancelWake ≠ none := by
    rw [Listener.signal]
    split
    · rename_i waiting
      exact waiting.resolve_right (by
        rw [going]
        exact Bool.false_ne_true)
    · exact Option.some_ne_none _
  obtain ⟨window, waiting⟩ := Option.ne_none_iff_exists'.mp waits
  have member : window ∈ listener.signal.windows := by
    rw [kept.windows, waiting]
    exact List.mem_singleton_self window
  exact ⟨window, member, (kept.fresh window member).2⟩

theorem Windowed.answers
    (windowed : listener.Windowed) {window : Nat} (answers : listener.Answers window)
    (step : Step) :
    (listener.execute step).Answers window := by
  have untouched : ∀ {after}, SameWindows listener after → after.Answers window := by
    intro after same
    rw [Answers, same.stopped, same.windows, same.woken]
    exact answers
  cases step
  case stop => exact .inl rfl
  case notification client message =>
    rw [Listener.execute]
    split
    · rw [Listener.signal]
      split
      · exact answers
      · exact answers.imp_right fun answers =>
          answers.imp_left fun waits => List.mem_cons_of_mem _ waits
    · exact answers
  case windowCloses closing =>
    rw [Listener.execute]
    split
    case isFalse => exact answers
    case isTrue member =>
      split
      case isTrue stopped => exact .inl stopped
      case isFalse =>
        rcases answers with stopped | waits | woken
        · exact .inl stopped
        · rw [(windowed.alone member).1] at waits
          rw [List.mem_singleton.mp waits]
          exact .inr (.inr List.mem_cons_self)
        · exact .inr (.inr (List.mem_cons_of_mem _ woken))
  all_goals exact untouched (execute_sameWindows not_false)

/-- After a stop no wake is called and no `connect` is started. -/
structure Halts (listener after : Listener) : Prop where
  stopped : after.stopped = true
  woken : after.woken = listener.woken
  connects : after.connects = listener.connects

theorem halts_execute (stopped : listener.stopped = true) (step : Step) :
    Halts listener (listener.execute step) := by
  have same : Halts listener listener := ⟨stopped, rfl, rfl⟩
  cases step with
  | start =>
    rw [Listener.execute, openSession, if_pos (.inl (by exact stopped))]
    exact ⟨stopped, rfl, rfl⟩
  | stop => exact ⟨rfl, rfl, rfl⟩
  | connected =>
    rw [Listener.execute]
    split
    · exact ⟨stopped, rfl, rfl⟩
    · exact same
  | listens client =>
    rw [Listener.execute]
    split
    · rw [listen, if_pos stopped]
      exact ⟨stopped, rfl, rfl⟩
    · exact same
  | notification client message =>
    rw [Listener.execute]
    split
    · rw [Listener.signal, if_pos (.inr stopped)]
      exact same
    · exact same
  | emits client reason =>
    rw [Listener.execute]
    split
    · rw [drop]
      split
      · exact same
      · rw [retry, if_pos (by exact stopped)]
        exact ⟨stopped, rfl, rfl⟩
    · exact same
  | windowCloses window =>
    rw [Listener.execute]
    split
    · exact ⟨stopped, rfl, rfl⟩
    · exact same
  | timerFires timer =>
    rw [Listener.execute]
    split
    · rw [openSession, if_pos (.inl (by exact stopped))]
      exact ⟨stopped, rfl, rfl⟩
    · exact same
  | _ =>
    rw [Listener.execute]
    split
    · rw [fail, retry, if_pos (by exact stopped)]
      exact ⟨stopped, rfl, rfl⟩
    · exact same

end Signals

/-! ## Runs -/

section Runs

variable {steps : List Step}

theorem run_windowed (listener : Listener) (windowed : listener.Windowed) (steps : List Step) :
    (run execute listener steps).Windowed :=
  run_invariant_always (fun _ step kept => kept.execute step) windowed steps

theorem run_sound (once : EveryStep execute CalledOnce initial steps)
    (listens : EveryStep execute Listens initial steps) :
    (run execute initial steps).Sound :=
  run_invariant (fun _ _ sound admitted => sound.execute admitted.1 admitted.2)
    initial_sound (everyStep_and.mpr ⟨once, listens⟩)

variable {listener : Listener}

theorem run_answers (windowed : listener.Windowed) {window : Nat}
    (answers : listener.Answers window) (steps : List Step) :
    (run execute listener steps).Answers window := by
  induction steps generalizing listener with
  | nil => exact answers
  | cons step rest ih => exact ih (windowed.execute step) (windowed.answers answers step)

theorem run_halts (stopped : listener.stopped = true) (steps : List Step) :
    Halts listener (run execute listener steps) := by
  induction steps generalizing listener with
  | nil => exact ⟨stopped, rfl, rfl⟩
  | cons step rest ih =>
    have first := halts_execute stopped step
    have later := ih first.stopped
    exact ⟨later.stopped, later.woken.trans first.woken, later.connects.trans first.connects⟩

theorem Sound.sessions_length (sound : listener.Sound) : listener.sessions.length ≤ 1 := by
  have fewer := List.length_filterMap_le Opening.client? listener.openings
  rw [sessions, List.length_append]
  cases stopped : listener.stopped with
  | true =>
    obtain ⟨noClient, _, one⟩ := sound.halted stopped
    rw [noClient]
    change 0 + _ ≤ 1
    omega
  | false =>
    have one := sound.going stopped
    have once := sound.once
    omega

theorem Sound.openClients_length (sound : listener.Sound) : listener.openClients.length ≤ 1 := by
  refine Nat.le_trans (List.Nodup.length_le_of_subset ?_ ?_) sound.sessions_length
  · exact List.nodup_range.filter _
  · intro client member
    obtain ⟨below, still⟩ := List.mem_filter.mp member
    exact sound.kept client (List.mem_range.mp below) (of_decide_eq_true still)

theorem Sound.attended (sound : listener.Sound) (started : 0 < listener.starts)
    (going : listener.stopped = false) :
    listener.Attended := by
  have one := sound.going going
  have once := sound.once
  cases live : listener.client with
  | some client =>
    have member : client ∈ listener.sessions := by
      rw [sessions, live]
      exact List.mem_cons_self
    obtain ⟨below, still⟩ := sound.alive client member
    refine .inl ⟨client, ?_, live, ?_⟩
    · exact List.mem_filter.mpr ⟨List.mem_range.mpr below, decide_eq_true still⟩
    · rw [sound.handled, live]
      exact List.mem_singleton_self client
  | none =>
    rw [live, Option.toList_none, List.length_nil] at one
    cases openings : listener.openings with
    | cons opening rest =>
      refine .inr (.inl ?_)
      rw [openings]
      exact List.cons_ne_nil opening rest
    | nil =>
      rw [openings, List.length_nil] at one
      exact .inr (.inr (by omega))

/-- After a stop a client that is not ended is one on which `LISTEN` is in progress,
and it is ended when that has succeeded. -/
theorem Sound.ends (sound : listener.Sound) (stopped : listener.stopped = true)
    {client : Nat} (below : client < listener.connected) :
    client ∈ (listener.execute (.listens client)).ended := by
  rw [Listener.execute]
  split
  case isTrue =>
    rw [listen, if_pos stopped]
    exact List.mem_cons_self
  case isFalse absent =>
    by_contra still
    have member := sound.kept client below still
    rw [sessions, (sound.halted stopped).1] at member
    obtain ⟨opening, isOpening, isClient⟩ := List.mem_filterMap.mp member
    cases opening with
    | connecting => cases isClient
    | listening other =>
      cases isClient
      exact absent isOpening

/-- When no `LISTEN` fails: one client at most is not ended; somebody listens, or
sees to it, until the stop; a valid notification of the live client has a window
that waits until it calls `wake`, which no window does twice; and after a stop no
wake is called, no `connect` is started and every client is ended, the one on which
`LISTEN` is still in progress when that has succeeded. -/
theorem one_session_at_a_time
    (steps : List Step) (once : EveryStep execute CalledOnce initial steps)
    (listens : EveryStep execute Listens initial steps) :
    (run execute initial steps).openClients.length ≤ 1 ∧ (0 < (run execute initial steps).starts →
        (run execute initial steps).stopped = false →
        (run execute initial steps).Attended) ∧
      (∀ before client message after,
        steps = before ++ .notification client message :: after →
        (run execute initial before).client = some client → message.Valid →
        (run execute initial steps).stopped = false →
        ∃ window ∈ ((run execute initial before).execute (.notification client message)).windows,
          window ∉ ((run execute initial before).execute (.notification client message)).woken ∧
          (window ∈ (run execute initial steps).windows ∨
            window ∈ (run execute initial steps).woken)) ∧
      (run execute initial steps).woken.Nodup ∧
      ∀ before after, steps = before ++ .stop :: after →
        (run execute initial steps).woken = (run execute initial before).woken ∧
          (run execute initial steps).connects = (run execute initial before).connects ∧
          ∀ client < (run execute initial steps).connected,
            client ∈ ((run execute initial steps).execute (.listens client)).ended := by
  have sound := run_sound once listens
  have windowed := run_windowed initial initial_windowed steps
  refine ⟨sound.openClients_length, sound.attended, ?_, windowed.once, ?_⟩
  · rintro before client message after rfl live valid going
    have early := run_windowed initial initial_windowed before
    have going' : (run execute initial before).stopped = false := by
      apply Bool.eq_false_iff.mpr
      intro stopped
      rw [run_append, (run_halts stopped _).stopped] at going
      exact Bool.noConfusion going
    have soundBefore := run_sound (once.of_prefix (List.prefix_append before _))
      (listens.of_prefix (List.prefix_append before _))
    have handles : client ∈ (run execute initial before).handled := by
      rw [soundBefore.handled, live]
      exact List.mem_singleton_self client
    have signals : (run execute initial before).execute
        (.notification client message) = (run execute initial before).signal :=
      if_pos ⟨handles, valid⟩
    obtain ⟨window, waits, asleep⟩ := early.signal_opens going'
    rw [signals]
    refine ⟨window, waits, asleep, ?_⟩
    have answered := run_answers early.signal (.inr (.inl waits)) after
    rw [run_append, run_cons, signals] at going ⊢
    exact answered.resolve_left (by
      rw [going]
      exact Bool.false_ne_true)
  · rintro before after rfl
    have stops := @run_halts (run execute initial before).stop rfl after
    rw [run_append] at sound ⊢
    exact ⟨stops.woken, stops.connects, fun client below =>
      sound.ends stops.stopped below⟩

/-- A notification, the wake of its window, and a stop. -/
theorem one_session_at_a_time_stopped :
    (run execute initial [.start, .connected, .listens 0,
        .notification 0 ⟨"dispatch_tick", some ⟨some 1, some "request"⟩⟩,
        .windowCloses 0, .stop]).woken = [0] ∧
      (run execute initial [.start, .connected, .listens 0,
        .notification 0 ⟨"dispatch_tick", some ⟨some 1, some "request"⟩⟩,
        .windowCloses 0, .stop]).openClients.length ≤ 1 :=
  ⟨by decide, (one_session_at_a_time _ (by decide) (by decide)).1⟩

/-- A `LISTEN` that fails leaves its client open beside that of the retry. -/
theorem failed_listen_leaks :
    ¬ ∀ steps : List Step, EveryStep execute CalledOnce initial steps →
      (run execute initial steps).openClients.length ≤ 1 := by
  intro one
  exact absurd (one [.start, .connected, .listenFails 0, .timerFires ⟨0, 250⟩,
    .connected] (by decide)) (by decide)

end Runs

end Listener

end Service
end Scrum4Me
