import KamaWebserver.Basic
import KamaWebserver.Library.OrderedSet
import Mathlib.Logic.Function.Basic

set_option autoImplicit false

namespace KamaWebserver

/-- A `Timer` object: its expiration in microseconds, its interval as `addTime` converts it,
and `repeat_`. -/
structure Timer where
  expiration : Int
  delta : Int
  repeats : Bool
  deriving DecidableEq

def Timer.restart (timer : Timer) (now : Int) : Timer :=
  { timer with expiration := if timer.repeats then now + timer.delta else 0 }

/-- An `Entry` of `timers_`: the expiration under which a timer is filed, and its address. -/
structure Entry where
  expiration : Int
  timer : Nat
  deriving DecidableEq

/-- `UINTPTR_MAX`. -/
def uintptrMax : Nat := sizeModulus - 1

/-- `operator<` of the pair. -/
def Entry.Before (first second : Entry) : Prop :=
  first.expiration < second.expiration ∨
    ¬ second.expiration < first.expiration ∧ first.timer < second.timer

instance (first second : Entry) : Decidable (first.Before second) :=
  inferInstanceAs (Decidable (first.expiration < second.expiration ∨
    ¬ second.expiration < first.expiration ∧ first.timer < second.timer))

/-- What `timerfd_settime` was last given: the expiration and the clock reading from which
`resetTimerfd` computes the delay. -/
structure Arming where
  expiration : Int
  now : Int
  deriving DecidableEq

/-- The delay in microseconds. It is never zero, which would disarm the descriptor. -/
def Arming.delay (arming : Arming) : Int :=
  if arming.expiration - arming.now < 100 then 100 else arming.expiration - arming.now

/-- What the queue does that can be seen: it runs a timer's callback or deletes the timer. -/
inductive TimerEffect
  | run (timer : Nat)
  | delete (timer : Nat)
  deriving DecidableEq

/-- `timers` is `timers_` in the order of the set, `objects` the `Timer` objects in memory by
their addresses, `timerfd` what the descriptor is armed with. The trace is newest first. -/
structure TimerQueue where
  timers : List Entry
  objects : Nat → Option Timer
  timerfd : Option Arming
  trace : List TimerEffect

/-- A call of `addTimer`: the object, the address `new` gives it, and what the clock shows if
the descriptor is armed for it. -/
structure AddTimer where
  timer : Nat
  object : Timer
  now : Int

/-- What the clock shows when a timer is restarted and when the descriptor is armed next. -/
structure ResetReadings where
  restart : Int
  arm : Int

namespace TimerQueue

def create : TimerQueue := ⟨[], fun _ => none, none, []⟩

def emit (q : TimerQueue) (effect : TimerEffect) : TimerQueue :=
  { q with trace := effect :: q.trace }

/-- Read a `Timer` through its pointer. -/
def object (q : TimerQueue) (timer : Nat) : Except Fault Timer :=
  match q.objects timer with
  | some object => .ok object
  | none => .error .nullPointer

def resetTimerfd (q : TimerQueue) (expiration now : Int) : TimerQueue :=
  { q with timerfd := some ⟨expiration, now⟩ }

/-- `insert`; the flag says whether the earliest expiration has changed. -/
def insert (q : TimerQueue) (timer : Nat) : Except Fault (TimerQueue × Bool) := do
  let object ← q.object timer
  let earliestChanged :=
    match q.timers with
    | [] => true
    | first :: _ => object.expiration < first.expiration
  return ({ q with
    timers := OrderedSet.insert Entry.Before ⟨object.expiration, timer⟩ q.timers }, earliestChanged)

def addTimerInLoop (q : TimerQueue) (timer : Nat) (now : Int) : Except Fault TimerQueue := do
  let (q, earliestChanged) ← q.insert timer
  let object ← q.object timer
  return if earliestChanged then q.resetTimerfd object.expiration now else q

/-- `addTimer`; `new` gives the object an address that no live object has. -/
def addTimer (q : TimerQueue) (add : AddTimer) : Except Fault TimerQueue :=
  if q.objects add.timer = none ∧ add.timer < uintptrMax then
    { q with objects := Function.update q.objects add.timer (some add.object) }.addTimerInLoop
      add.timer add.now
  else .error .notEnabled

/-- The timers a callback adds, one after the other. -/
def addTimers (q : TimerQueue) : List AddTimer → Except Fault TimerQueue
  | [] => .ok q
  | add :: adds => do
      let q ← q.addTimer add
      addTimers q adds

/-- The entries before the sentry of `getExpired`. -/
def isExpired (now : Int) (entry : Entry) : Bool := entry.Before ⟨now, uintptrMax⟩

/-- The expired entries, and the queue without them. -/
def getExpired (q : TimerQueue) (now : Int) : List Entry × TimerQueue :=
  (q.timers.takeWhile (isExpired now), { q with timers := q.timers.dropWhile (isExpired now) })

/-- The loop of `handleRead` over the expired timers; `callbacks` holds what each adds. -/
def runCallbacks (q : TimerQueue) : List Entry → List (List AddTimer) → Except Fault TimerQueue
  | [], _ => .ok q
  | entry :: expired, callbacks => do
      let _ ← q.object entry.timer
      let q ← (q.emit (.run entry.timer)).addTimers (callbacks.headD [])
      runCallbacks q expired callbacks.tail

/-- A repeating timer is restarted and filed again, any other is deleted. -/
def restartOrDelete (q : TimerQueue) (timer : Nat) (now : Int) : Except Fault TimerQueue := do
  let object ← q.object timer
  if object.repeats then do
    let q := { q with objects := Function.update q.objects timer (some (object.restart now)) }
    let (q, _) ← q.insert timer
    return q
  else
    return { q with objects := Function.update q.objects timer none }.emit (.delete timer)

/-- Arm the descriptor for the first timer, if there is one. -/
def rearm (q : TimerQueue) (now : Int) : Except Fault TimerQueue :=
  match q.timers with
  | [] => .ok q
  | first :: _ => do
      let object ← q.object first.timer
      return q.resetTimerfd object.expiration now

/-- The loop of `reset`. -/
def reset (q : TimerQueue) : List Entry → List ResetReadings → Except Fault TimerQueue
  | [], _ => .ok q
  | entry :: expired, readings => do
      let reading := readings.headD ⟨0, 0⟩
      let q ← q.restartOrDelete entry.timer reading.restart
      let q ← q.rearm reading.arm
      reset q expired readings.tail

/-- `handleRead` at the clock reading `now`. Reading the descriptor does not arm it. -/
def handleRead (q : TimerQueue) (now : Int) (callbacks : List (List AddTimer))
    (readings : List ResetReadings) : Except Fault TimerQueue := do
  let (expired, q) := q.getExpired now
  let q ← q.runCallbacks expired callbacks
  q.reset expired readings

end TimerQueue

end KamaWebserver
