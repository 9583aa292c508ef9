import KamaWebserver.Basic
import KamaWebserver.Library.BatchQueue
import KamaWebserver.Library.Transition

set_option autoImplicit false

namespace KamaWebserver

open Outcome Transition

/-- Where the loop's thread is: outside `loop()`, at the test of `quit_`, blocked in `poll`,
in the handlers of the active channels (`wake` while the wakeup channel's is still to come),
at the start of `doPendingFunctors`, and behind its swap. -/
inductive LoopPhase
  | outside
  | test
  | poll
  | handle (wake : Bool)
  | swap
  | run
  deriving DecidableEq, Repr

/-- An event loop and the calls in flight on it. `waking` holds the positions of the functors
whose callers on other threads have pushed them and not yet written to the eventfd, and
`ownWaking` the same for the loop's own thread; `quitting` counts the threads between the
two steps of `quit()`.

The last five fields are history: all functors in the order of their pushes, those that have
run, whether a `quit()` is still to be honoured, the positions of the functors whose
`queueInLoop` had returned when some `quit()` was called, and those of them that had not run
when `loop()` returned. -/
structure EventLoop (α : Type) where
  phase : LoopPhase
  published : Bool
  quit : Bool
  callingPendingFunctors : Bool
  queue : BatchQueue α
  wakeupFd : Nat
  waking : List Nat
  ownWaking : Option Nat
  quitting : Nat
  pushed : List α
  executed : List α
  requested : Bool
  due : List Nat
  dropped : List Nat

/-- The steps of the loop's thread, then those of other threads. `queueInLoop` is called in
handlers and functors, `ownerQueueInLoop` outside `loop()`. -/
inductive LoopEvent (α : Type)
  | publish
  | loop
  | test
  | pollReturn (wake : Bool)
  | handleRead
  | doPendingFunctors
  | swap
  | runFunctor
  | endBatch
  | queueInLoop (functor : α)
  | ownerQueueInLoop (functor : α)
  | ownWakeup
  | ownQuit
  | push (functor : α)
  | wakeup (index : Nat)
  | quit
  | quitWakeup

namespace EventLoop

variable {α : Type}

/-- A loop just after its constructor. -/
def create : EventLoop α where
  phase := .outside
  published := false
  quit := false
  callingPendingFunctors := false
  queue := .empty
  wakeupFd := 0
  waking := []
  ownWaking := none
  quitting := 0
  pushed := []
  executed := []
  requested := false
  due := []
  dropped := []

/-- The test of `queueInLoop` for a wakeup. -/
def needsWakeup (isInLoopThread callingPendingFunctors : Bool) : Bool :=
  !isInLoopThread || callingPendingFunctors

/-- The write of `wakeup()`, which fails when the counter is at its maximum. -/
def eventfdWrite (counter : Nat) : Nat :=
  if counter + 1 < sizeModulus - 1 then counter + 1 else counter

/-- `pendingFunctors_.emplace_back` under the lock. -/
def emplaceBack (s : EventLoop α) (functor : α) : EventLoop α :=
  { s with queue := s.queue.push [functor], pushed := s.pushed ++ [functor] }

/-- `queueInLoop` on the loop's thread, up to its wakeup. -/
def queueInLoop (s : EventLoop α) (functor : α) : EventLoop α :=
  { s.emplaceBack functor with
    ownWaking := if needsWakeup true s.callingPendingFunctors then some s.pushed.length else none }

/-- `queueInLoop` on another thread, up to its wakeup. -/
def push (s : EventLoop α) (functor : α) : EventLoop α :=
  { s.emplaceBack functor with
    waking :=
      if needsWakeup false s.callingPendingFunctors then s.waking ++ [s.pushed.length]
      else s.waking }

/-- The position belongs to a functor whose `queueInLoop` has returned. -/
def Completed (s : EventLoop α) (position : Nat) : Prop :=
  position < s.pushed.length ∧ position ∉ s.waking ∧ s.ownWaking ≠ some position

instance (s : EventLoop α) (position : Nat) : Decidable (s.Completed position) :=
  inferInstanceAs (Decidable
    (position < s.pushed.length ∧ position ∉ s.waking ∧ s.ownWaking ≠ some position))

/-- `quit_ = true`. -/
def setQuit (s : EventLoop α) : EventLoop α :=
  { s with
    quit := true
    requested := true
    due := s.due ++ (List.range s.pushed.length).filter fun position => s.Completed position }

/-- The test of `quit_` at the head of the loop. -/
def testQuit (s : EventLoop α) : EventLoop α :=
  if s.quit then
    { s with
      phase := .outside
      requested := false
      dropped := s.dropped ++ s.due.filter fun position => s.executed.length ≤ position }
  else { s with phase := .poll }

/-- The next functor of the batch runs. -/
def runFunctor (s : EventLoop α) : Except Fault (EventLoop α) :=
  match s.queue.next with
  | none => .error .notEnabled
  | some (functor, queue) => .ok { s with queue, executed := s.executed ++ [functor] }

/-- The loop's thread is in a handler or a functor. -/
def InCallback (s : EventLoop α) : Prop :=
  match s.phase with
  | .handle _ => True
  | .run => s.queue.ran ≠ []
  | _ => False

instance (s : EventLoop α) : Decidable s.InCallback :=
  match phase : s.phase with
  | .handle _ => isTrue (by simp [InCallback, phase])
  | .run => decidable_of_iff (s.queue.ran ≠ []) (by simp [InCallback, phase])
  | .outside | .test | .poll | .swap => isFalse (by simp [InCallback, phase])

/-- A step of the loop's thread, which is not in the middle of `queueInLoop`. -/
def own (s : EventLoop α) (enabled : Prop) [Decidable enabled] (next : EventLoop α) :
    Except Fault (EventLoop α) :=
  if s.ownWaking = none ∧ enabled then .ok next else .error .notEnabled

/-- A step of a thread that has been given the loop's pointer. -/
def other (s : EventLoop α) (enabled : Prop) [Decidable enabled] (next : EventLoop α) :
    Except Fault (EventLoop α) :=
  if s.published = true ∧ enabled then .ok next else .error .notEnabled

def step (s : EventLoop α) : LoopEvent α → Except Fault (EventLoop α)
  | .publish => s.own (s.phase = .outside) { s with published := true }
  | .loop => s.own (s.phase = .outside) { s with phase := .test, quit := false }
  | .test => s.own (s.phase = .test) s.testQuit
  | .pollReturn wake =>
      s.own (s.phase = .poll ∧ (wake = true → 0 < s.wakeupFd)) { s with phase := .handle wake }
  | .handleRead =>
      s.own (s.phase = .handle true) { s with phase := .handle false, wakeupFd := 0 }
  | .doPendingFunctors =>
      s.own (s.phase = .handle false) { s with phase := .swap, callingPendingFunctors := true }
  | .swap => s.own (s.phase = .swap) { s with phase := .run, queue := s.queue.swap }
  | .runFunctor =>
      if s.ownWaking = none ∧ s.phase = .run then s.runFunctor else .error .notEnabled
  | .endBatch =>
      s.own (s.phase = .run ∧ s.queue.batch = [])
        { s with phase := .test, callingPendingFunctors := false, queue := s.queue.finish }
  | .queueInLoop functor => s.own s.InCallback (s.queueInLoop functor)
  | .ownerQueueInLoop functor => s.own (s.phase = .outside) (s.queueInLoop functor)
  | .ownWakeup =>
      if s.ownWaking ≠ none then
        .ok { s with ownWaking := none, wakeupFd := eventfdWrite s.wakeupFd }
      else .error .notEnabled
  | .ownQuit => s.own (s.InCallback ∨ s.phase = .outside) s.setQuit
  | .push functor => s.other True (s.push functor)
  | .wakeup index =>
      s.other (index < s.waking.length)
        { s with waking := s.waking.eraseIdx index, wakeupFd := eventfdWrite s.wakeupFd }
  | .quit => s.other True { s.setQuit with quitting := s.quitting + 1 }
  | .quitWakeup =>
      s.other (0 < s.quitting)
        { s with quitting := s.quitting - 1, wakeupFd := eventfdWrite s.wakeupFd }

/-- What each step requires and does, read off `step` once. -/
inductive Step (s : EventLoop α) : LoopEvent α → EventLoop α → Prop
  | publish (outside : s.phase = .outside) : Step s .publish { s with published := true }
  | loop (outside : s.phase = .outside) (free : s.ownWaking = none) :
      Step s .loop { s with phase := .test, quit := false }
  | returns (tests : s.phase = .test) (quits : s.quit = true) (free : s.ownWaking = none) :
      Step s .test
        { s with
          phase := .outside
          requested := false
          dropped := s.dropped ++
            s.due.filter fun position => decide (s.executed.length ≤ position) }
  | blocks (tests : s.phase = .test) (stays : s.quit = false) (free : s.ownWaking = none) :
      Step s .test { s with phase := .poll }
  | pollReturn (wake : Bool) (polls : s.phase = .poll) (woken : wake = true → 0 < s.wakeupFd) :
      Step s (.pollReturn wake) { s with phase := .handle wake }
  | handleRead (handles : s.phase = .handle true) :
      Step s .handleRead { s with phase := .handle false, wakeupFd := 0 }
  | doPendingFunctors (handles : s.phase = .handle false) :
      Step s .doPendingFunctors { s with phase := .swap, callingPendingFunctors := true }
  | swap (swaps : s.phase = .swap) :
      Step s .swap { s with phase := .run, queue := s.queue.swap }
  | runFunctor (functor : α) (queue : BatchQueue α) (runs : s.phase = .run)
      (next : s.queue.next = some (functor, queue)) :
      Step s .runFunctor { s with queue, executed := s.executed ++ [functor] }
  | endBatch (runs : s.phase = .run) (free : s.ownWaking = none) (ended : s.queue.batch = []) :
      Step s .endBatch
        { s with phase := .test, callingPendingFunctors := false, queue := s.queue.finish }
  | queueInLoop (functor : α) (inside : s.InCallback) :
      Step s (.queueInLoop functor) (s.queueInLoop functor)
  | ownerQueueInLoop (functor : α) (outside : s.phase = .outside) :
      Step s (.ownerQueueInLoop functor) (s.queueInLoop functor)
  | ownWakeup (pushed : s.ownWaking ≠ none) :
      Step s .ownWakeup { s with ownWaking := none, wakeupFd := eventfdWrite s.wakeupFd }
  | ownQuit (free : s.ownWaking = none) (inside : s.InCallback ∨ s.phase = .outside) :
      Step s .ownQuit s.setQuit
  | push (functor : α) : Step s (.push functor) (s.push functor)
  | wakeup (index : Nat) (waits : index < s.waking.length) :
      Step s (.wakeup index)
        { s with waking := s.waking.eraseIdx index, wakeupFd := eventfdWrite s.wakeupFd }
  | quit : Step s .quit { s.setQuit with quitting := s.quitting + 1 }
  | quitWakeup (waits : 0 < s.quitting) :
      Step s .quitWakeup
        { s with quitting := s.quitting - 1, wakeupFd := eventfdWrite s.wakeupFd }

variable {s after : EventLoop α}

theorem own_ok {enabled : Prop} [Decidable enabled] {next : EventLoop α}
    (taken : s.own enabled next = .ok after) :
    s.ownWaking = none ∧ enabled ∧ next = after := by
  obtain ⟨⟨free, met⟩, returned⟩ := guard_ok taken
  exact ⟨free, met, Except.ok.inj returned⟩

theorem other_ok {enabled : Prop} [Decidable enabled] {next : EventLoop α}
    (taken : s.other enabled next = .ok after) : enabled ∧ next = after := by
  obtain ⟨⟨-, met⟩, returned⟩ := guard_ok taken
  exact ⟨met, Except.ok.inj returned⟩

theorem step_inv {event : LoopEvent α} (taken : s.step event = .ok after) :
    Step s event after := by
  cases event with
  | publish =>
      obtain ⟨-, outside, rfl⟩ := own_ok taken
      exact .publish outside
  | loop =>
      obtain ⟨free, outside, rfl⟩ := own_ok taken
      exact .loop outside free
  | test =>
      obtain ⟨free, tests, rfl⟩ := own_ok taken
      unfold testQuit
      split
      · rename_i quits
        exact .returns tests quits free
      · rename_i stays
        exact .blocks tests (by simpa using stays) free
  | pollReturn wake =>
      obtain ⟨-, ⟨polls, woken⟩, rfl⟩ := own_ok taken
      exact .pollReturn wake polls woken
  | handleRead =>
      obtain ⟨-, handles, rfl⟩ := own_ok taken
      exact .handleRead handles
  | doPendingFunctors =>
      obtain ⟨-, handles, rfl⟩ := own_ok taken
      exact .doPendingFunctors handles
  | swap =>
      obtain ⟨-, swaps, rfl⟩ := own_ok taken
      exact .swap swaps
  | runFunctor =>
      obtain ⟨⟨-, runs⟩, ran⟩ := guard_ok taken
      unfold runFunctor at ran
      cases next : s.queue.next with
      | none => simp [next] at ran
      | some pair =>
          obtain ⟨functor, queue⟩ := pair
          simp only [next] at ran
          cases ran
          exact .runFunctor functor queue runs next
  | endBatch =>
      obtain ⟨free, ⟨runs, ended⟩, rfl⟩ := own_ok taken
      exact .endBatch runs free ended
  | queueInLoop functor =>
      obtain ⟨-, inside, rfl⟩ := own_ok taken
      exact .queueInLoop functor inside
  | ownerQueueInLoop functor =>
      obtain ⟨-, outside, rfl⟩ := own_ok taken
      exact .ownerQueueInLoop functor outside
  | ownWakeup =>
      obtain ⟨pushed, returned⟩ := guard_ok taken
      cases returned
      exact .ownWakeup pushed
  | ownQuit =>
      obtain ⟨free, inside, rfl⟩ := own_ok taken
      exact .ownQuit free inside
  | push functor =>
      obtain ⟨-, rfl⟩ := other_ok taken
      exact .push functor
  | wakeup index =>
      obtain ⟨waits, rfl⟩ := other_ok taken
      exact .wakeup index waits
  | quit =>
      obtain ⟨-, rfl⟩ := other_ok taken
      exact .quit
  | quitWakeup =>
      obtain ⟨waits, rfl⟩ := other_ok taken
      exact .quitWakeup waits

/-- After a wakeup the counter is positive. -/
theorem eventfdWrite_pos (counter : Nat) : 0 < eventfdWrite counter := by
  have large : 2 < sizeModulus := by decide
  unfold eventfdWrite
  split <;> omega

end EventLoop

end KamaWebserver
