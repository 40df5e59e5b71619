import Mathlib.Algebra.Ring.Nat
import Mathlib.Data.List.Nodup
import Scrum4Me.Foundation.Execution

/-!
# The tick listener

`createDispatchTickListener`: calls of `open` suspended at one of their two awaits,
the handlers on the live client, the coalescing window and the retry timer share
four variables.
-/

namespace Scrum4Me
namespace Service

open Foundation

/-! ## Notifications -/

inductive DispatchTickReason
  | request
  | capacity
  deriving DecidableEq

/-- The fields of a payload that is JSON; `none` for a value of another type. -/
structure Payload where
  v : Option Int
  reason : Option String
  deriving DecidableEq

structure Message where
  channel : String
  /-- `none` for a payload that is not JSON. -/
  payload : Option Payload
  deriving DecidableEq

def dispatchTickChannel : String := "dispatch_tick"

def Payload.reason? (payload : Payload) : Option DispatchTickReason :=
  if payload.reason = some "request" then some .request
  else if payload.reason = some "capacity" then some .capacity
  else none

def parseDispatchTickSignal (payload : Option Payload) : Option DispatchTickReason :=
  payload.bind fun value => if value.v ≠ some 1 then none else value.reason?

/-- The message is a signal on the channel of the listener. -/
def Message.Valid (message : Message) : Prop :=
  message.channel = dispatchTickChannel ∧ (parseDispatchTickSignal message.payload).isSome = true

instance (message : Message) : Decidable message.Valid :=
  inferInstanceAs (Decidable (_ ∧ _))

/-! ## The listener -/

/-- Where a call of `open` is suspended. -/
inductive Opening
  | connecting
  /-- `LISTEN` is in progress on a client that `connect` returned. -/
  | listening (client : Nat)
  deriving DecidableEq

def Opening.client? : Opening → Option Nat
  | .connecting => none
  | .listening client => some client

inductive Reason
  | error
  | ended
  deriving DecidableEq

inductive Event
  | failed (attempt : Nat)
  | dropped (reason : Reason)
  | listening
  deriving DecidableEq

def backoffMs (attempt : Nat) : Nat :=
  min 30000 (250 * 2 ^ min (attempt - 1) 7)

structure Timer where
  number : Nat
  delay : Nat
  deriving DecidableEq

structure Listener where
  client : Option Nat
  cancelWake : Option Nat
  retryTimer : Option Nat
  failures : Nat
  stopped : Bool
  openings : List Opening
  /-- The clients that carry the three handlers. -/
  handled : List Nat
  /-- The clients whose `end` was called. -/
  ended : List Nat
  /-- The callbacks that `schedule` still holds. -/
  windows : List Nat
  /-- The timers that are armed. -/
  timers : List Timer
  log : List Event
  /-- The calls of `start`. -/
  starts : Nat
  /-- The calls of `connect`. -/
  connects : Nat
  /-- The clients that `connect` returned. -/
  connected : Nat
  /-- The windows opened. -/
  opened : Nat
  /-- The timers set. -/
  armed : Nat
  /-- The windows that called `wake`. -/
  woken : List Nat
  deriving DecidableEq

namespace Listener

def initial : Listener where
  client := none
  cancelWake := none
  retryTimer := none
  failures := 0
  stopped := false
  openings := []
  handled := []
  ended := []
  windows := []
  timers := []
  log := []
  starts := 0
  connects := 0
  connected := 0
  opened := 0
  armed := 0
  woken := []

def signal (listener : Listener) : Listener :=
  if listener.cancelWake ≠ none ∨ listener.stopped = true then listener
  else
    { listener with
      cancelWake := some listener.opened
      windows := listener.opened :: listener.windows
      opened := listener.opened + 1 }

def retry (listener : Listener) : Listener :=
  if listener.stopped = true then listener
  else
    { listener with
      failures := listener.failures + 1
      retryTimer := some listener.armed
      timers := ⟨listener.armed, backoffMs (listener.failures + 1)⟩ :: listener.timers
      armed := listener.armed + 1 }

/-- A call of `open` up to its first `await`. -/
def openSession (listener : Listener) : Listener :=
  if listener.stopped = true ∨ listener.client ≠ none then listener
  else
    { listener with
      openings := .connecting :: listener.openings
      connects := listener.connects + 1 }

/-- The `catch` of `open`. -/
def fail (listener : Listener) (opening : Opening) : Listener :=
  { listener with
    openings := listener.openings.erase opening
    log := .failed (listener.failures + 1) :: listener.log }.retry

/-- What follows a successful `LISTEN`. -/
def listen (listener : Listener) (next : Nat) : Listener :=
  if listener.stopped = true then
    { listener with
      openings := listener.openings.erase (.listening next)
      ended := next :: listener.ended }
  else
    { listener with
      openings := listener.openings.erase (.listening next)
      handled := next :: listener.handled
      client := some next
      failures := 0
      log := .listening :: listener.log }

def drop (listener : Listener) (next : Nat) (reason : Reason) : Listener :=
  if listener.client ≠ some next then listener
  else
    { listener with
      client := none
      handled := listener.handled.erase next
      ended := next :: listener.ended
      log := .dropped reason :: listener.log }.retry

def stop (listener : Listener) : Listener :=
  { listener with
    stopped := true
    windows := listener.windows.filter fun window =>
      listener.cancelWake ≠ some window
    cancelWake := none
    timers := listener.timers.filter fun timer =>
      listener.retryTimer ≠ some timer.number
    retryTimer := none
    client := none
    handled := listener.handled.filter fun client =>
      listener.client ≠ some client
    ended := listener.client.toList ++ listener.ended }

inductive Step
  | start
  | stop
  | connected
  | connectFails
  | listens (client : Nat)
  | listenFails (client : Nat)
  | notification (client : Nat) (message : Message)
  | emits (client : Nat) (reason : Reason)
  | windowCloses (window : Nat)
  | timerFires (timer : Timer)
  deriving DecidableEq

def execute (listener : Listener) : Step → Listener
  | .start => { listener with starts := listener.starts + 1 }.openSession
  | .stop => listener.stop
  | .connected =>
      if .connecting ∈ listener.openings then
        { listener with
          openings := .listening listener.connected ::
            listener.openings.erase .connecting
          connected := listener.connected + 1 }
      else listener
  | .connectFails =>
      if .connecting ∈ listener.openings then listener.fail .connecting
      else listener
  | .listens client =>
      if .listening client ∈ listener.openings then listener.listen client
      else listener
  | .listenFails client =>
      -- the client that `connect` returned is not ended
      if .listening client ∈ listener.openings then
        listener.fail (.listening client)
      else listener
  | .notification client message =>
      if client ∈ listener.handled ∧ message.Valid then listener.signal
      else listener
  | .emits client reason =>
      if client ∈ listener.handled then listener.drop client reason
      else listener
  | .windowCloses window =>
      if window ∈ listener.windows then
        if listener.stopped = true then
          { listener with
            windows := listener.windows.erase window
            cancelWake := none }
        else
          { listener with
            windows := listener.windows.erase window
            cancelWake := none
            woken := window :: listener.woken }
      else listener
  | .timerFires timer =>
      if timer ∈ listener.timers then
        { listener with
          timers := listener.timers.erase timer
          retryTimer := none }.openSession
      else listener

end Listener

end Service
end Scrum4Me
