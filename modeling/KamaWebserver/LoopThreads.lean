import KamaWebserver.Library.Transition
import Mathlib.Logic.Function.Basic

set_option autoImplicit false

namespace KamaWebserver

open Outcome Transition

/-- Where a thread of the pool is: in the lambda of `Thread::start`, from `construct` on in
`threadFunc`. Each phase is named after what comes next; in `looping` it is inside `loop()`. -/
inductive ThreadPhase
  | unborn
  | tid
  | post
  | construct
  | callback
  | lock
  | publish
  | unlock
  | loop
  | looping
  | relock
  | clear
  | reunlock
  | destruct
  | finished
  deriving DecidableEq, Repr

/-- How many phases a thread has behind it. -/
def ThreadPhase.rank : ThreadPhase → Nat
  | .unborn => 0
  | .tid => 1
  | .post => 2
  | .construct => 3
  | .callback => 4
  | .lock => 5
  | .publish => 6
  | .unlock => 7
  | .loop => 8
  | .looping => 9
  | .relock => 10
  | .clear => 11
  | .reunlock => 12
  | .destruct => 13
  | .finished => 14

/-- The thread that holds a `mutex_`. -/
inductive MutexHolder
  | main
  | child
  deriving DecidableEq, Repr

/-- An `EventLoopThread` with its `Thread` and the `EventLoop` on the stack of `threadFunc`.
`loop_` is known by the number of the thread whose stack it points into; `sem` is the
semaphore of `Thread::start`. `initialized` counts the runs of the callback on the loop. -/
structure LoopThread where
  phase : ThreadPhase
  started : Bool
  joined : Bool
  tid : Nat
  sem : Nat
  holder : Option MutexHolder
  loop : Option Nat
  alive : Bool
  quit : Bool
  initialized : Nat
  destroyed : Bool
  deriving DecidableEq

/-- Where the main thread is: in `EventLoopThreadPool::start` with the thread of the given
number, between its start and its end, and in the pool's destructor. In `wakeup` it is inside
`quit()`, behind the store, on the loop of the second number. -/
inductive LoopPoolPhase
  | idle
  | create (thread : Nat)
  | semWait (thread : Nat)
  | lock (thread : Nat)
  | test (thread : Nat)
  | wait (thread : Nat)
  | serving
  | check (thread : Nat)
  | quit (thread : Nat)
  | wakeup (thread loop : Nat)
  | join (thread : Nat)
  | gone
  deriving DecidableEq, Repr

/-- The pool, its threads and the main thread. `baseInitialized` counts the runs of the callback
on the base loop; `quitting` are the loops on which some other thread is inside `quit()`, behind the
store. -/
structure LoopThreadPool where
  numThreads : Nat
  callback : Bool
  phase : LoopPoolPhase
  threads : Nat → LoopThread
  loops : List Nat
  baseInitialized : Nat
  quitting : List Nat

/-- A thread that cannot go on, and two ways to crash. -/
inductive LoopPoolFault
  | blocked
  | nullPointer
  | dangling
  deriving DecidableEq, Repr

/-- A step of the main thread or of a thread of the pool, a wakeup of `cond_.wait` without a
notification, and the two steps of a `quit()` of some other thread on a loop of `getAllLoops`. -/
inductive LoopPoolEvent
  | main
  | thread (thread : Nat)
  | spurious
  | quit (thread : Nat)
  | wakeup (thread : Nat)
  deriving DecidableEq

/-- Not yet constructed. -/
def LoopThread.create : LoopThread :=
  ⟨.unborn, false, false, 0, 0, none, none, false, false, 0, false⟩

namespace LoopThreadPool

def create (numThreads : Nat) (callback : Bool) : LoopThreadPool :=
  ⟨numThreads, callback, .idle, fun _ => .create, [], 0, []⟩

def setThread (s : LoopThreadPool) (i : Nat) (thread : LoopThread) : LoopThreadPool :=
  { s with threads := Function.update s.threads i thread }

def setPhase (s : LoopThreadPool) (phase : LoopPoolPhase) : LoopThreadPool := { s with phase }

/-- `EventLoop::quit` on the loop of a thread's stack, up to the store. -/
def quitLoop (s : LoopThreadPool) (i : Nat) : Except LoopPoolFault LoopThreadPool :=
  if (s.threads i).alive then .ok (s.setThread i { s.threads i with quit := true })
  else .error .dangling

/-- The rest of `quit` on another thread: the test of `threadId_` and, last, `wakeup()` read members
of the loop. -/
def wakeupLoop (s : LoopThreadPool) (i : Nat) : Except LoopPoolFault LoopThreadPool :=
  if (s.threads i).alive then .ok s else .error .dangling

/-- `cond_.wait` goes on with taking the mutex again. -/
def wake (s : LoopThreadPool) (i : Nat) : LoopThreadPool :=
  if s.phase = .wait i then s.setPhase (.lock i) else s

/-- The main thread: `start`, with `startLoop` and `Thread::start` inlined, then the destructors
of the threads in their order. -/
def stepMain (s : LoopThreadPool) : Except LoopPoolFault LoopThreadPool :=
  match s.phase with
  | .idle => .ok (s.setPhase (.create 0))
  | .create i =>
      if i < s.numThreads then
        .ok ((s.setThread i { LoopThread.create with phase := .tid, started := true }).setPhase
          (.semWait i))
      else
        .ok { s with
          phase := .serving
          baseInitialized :=
            if s.numThreads = 0 ∧ s.callback then s.baseInitialized + 1 else s.baseInitialized }
  | .semWait i =>
      if 0 < (s.threads i).sem then
        .ok ((s.setThread i { s.threads i with sem := (s.threads i).sem - 1 }).setPhase (.lock i))
      else .error .blocked
  | .lock i =>
      if (s.threads i).holder = none then
        .ok ((s.setThread i { s.threads i with holder := some .main }).setPhase (.test i))
      else .error .blocked
  | .test i =>
      let released := s.setThread i { s.threads i with holder := none }
      match (s.threads i).loop with
      | some loop => .ok { released with loops := s.loops ++ [loop], phase := .create (i + 1) }
      | none => .ok (released.setPhase (.wait i))
  | .wait _ => .error .blocked
  | .serving => .ok (s.setPhase (.check 0))
  | .check i =>
      if i < s.numThreads then
        match (s.threads i).loop with
        | some _ => .ok (s.setPhase (.quit i))
        | none =>
            .ok ((s.setThread i { s.threads i with destroyed := true }).setPhase (.check (i + 1)))
      else .ok (s.setPhase .gone)
  | .quit i =>
      match (s.threads i).loop with
      | some loop => do
          let s ← s.quitLoop loop
          return s.setPhase (.wakeup i loop)
      | none => .error .nullPointer
  | .wakeup i loop => do
      let s ← s.wakeupLoop loop
      return s.setPhase (.join i)
  | .join i =>
      if (s.threads i).phase = .finished then
        .ok ((s.setThread i { s.threads i with joined := true, destroyed := true }).setPhase
          (.check (i + 1)))
      else .error .blocked
  | .gone => .error .blocked

/-- What a thread does next to its own object. -/
def advance (callback : Bool) (i : Nat) (t : LoopThread) : Except LoopPoolFault LoopThread :=
  match t.phase with
  | .unborn => .error .blocked
  | .tid => .ok { t with phase := .post, tid := i + 1 }
  | .post => .ok { t with phase := .construct, sem := t.sem + 1 }
  | .construct => .ok { t with phase := .callback, alive := true, quit := false }
  | .callback =>
      .ok { t with
        phase := .lock
        initialized := if callback then t.initialized + 1 else t.initialized }
  | .lock =>
      if t.holder = none then .ok { t with phase := .publish, holder := some .child }
      else .error .blocked
  | .publish => .ok { t with phase := .unlock, loop := some i }
  | .unlock => .ok { t with phase := .loop, holder := none }
  | .loop => .ok { t with phase := .looping, quit := false }
  | .looping => if t.quit then .ok { t with phase := .relock } else .error .blocked
  | .relock =>
      if t.holder = none then .ok { t with phase := .clear, holder := some .child }
      else .error .blocked
  | .clear => .ok { t with phase := .reunlock, loop := none }
  | .reunlock => .ok { t with phase := .destruct, holder := none }
  | .destruct => .ok { t with phase := .finished, alive := false }
  | .finished => .error .blocked

/-- The phases in which a thread uses members of its `EventLoopThread`. -/
def usesMembers : ThreadPhase → Bool
  | .tid | .callback | .lock | .publish | .unlock | .relock | .clear | .reunlock => true
  | _ => false

/-- A thread of the pool. `publish` ends with `notify_one`. -/
def stepThread (s : LoopThreadPool) (i : Nat) : Except LoopPoolFault LoopThreadPool :=
  let t := s.threads i
  if t.destroyed ∧ usesMembers t.phase then .error .dangling
  else do
    let next ← advance s.callback i t
    let after := s.setThread i next
    return if t.phase = .publish then after.wake i else after

def step (s : LoopThreadPool) : LoopPoolEvent → Except LoopPoolFault LoopThreadPool
  | .main => s.stepMain
  | .thread i => s.stepThread i
  | .spurious =>
      match s.phase with
      | .wait i => .ok (s.setPhase (.lock i))
      | _ => .error .blocked
  | .quit i =>
      if i ∈ s.loops then do
        let s ← s.quitLoop i
        return { s with quitting := i :: s.quitting }
      else .error .blocked
  | .wakeup i =>
      if i ∈ s.quitting then do
        let s ← s.wakeupLoop i
        return { s with quitting := s.quitting.erase i }
      else .error .blocked

/-- A `quit()` from outside between the test of `loop_` and its use lets the thread end, and the
destructor goes through a null pointer. -/
example : (run step (create 1 false)
    (List.replicate 2 .main ++ List.replicate 8 (.thread 0) ++ List.replicate 6 .main ++
      [.quit 0, .thread 0, .thread 0, .thread 0, .main])).map (fun s => s.phase) =
    .error .nullPointer := by decide

end LoopThreadPool

end KamaWebserver
