import KamaWebserver.EventLoop
import KamaWebserver.Library.Fifo

set_option autoImplicit false

namespace KamaWebserver.EventLoop

open Outcome Transition

variable {α : Type} {s after : EventLoop α}

/-- The loop's queue and batch as one first-in first-out queue, from the pushes under the
lock to the runs of the functors. -/
structure Represents (s : EventLoop α) (fifo : Fifo α) : Prop where
  consumed : s.executed = fifo.consumed
  content : s.queue.waiting = fifo.content
  received : s.pushed = fifo.received
  batch : s.queue.batch ≠ [] → s.phase = .run

theorem Represents.push {fifo : Fifo α} (rep : s.Represents fifo) (functor : α)
    (executed : after.executed = s.executed)
    (queue : after.queue = s.queue.push [functor]) (pushed : after.pushed = s.pushed ++ [functor])
    (phase : after.phase = s.phase) : after.Represents (fifo.push [functor]) := by
  refine ⟨executed.trans rep.consumed, ?_, ?_, ?_⟩
  · rw [queue, BatchQueue.push_waiting, rep.content, Fifo.push_content]
  · rw [pushed, rep.received, Fifo.push_received]
  · rw [queue, phase]
    exact rep.batch

/-- A step that leaves queue and history alone. -/
theorem Represents.keep {fifo : Fifo α} (rep : s.Represents fifo)
    (executed : after.executed = s.executed) (queue : after.queue = s.queue)
    (pushed : after.pushed = s.pushed) (phase : s.phase = .run → after.phase = .run) :
    after.Represents fifo := by
  refine ⟨executed.trans rep.consumed, ?_, pushed.trans rep.received, ?_⟩
  · rw [queue]
    exact rep.content
  · rw [queue]
    exact fun some => phase (rep.batch some)

/-- Every step is a step of the queue: a push, the run of its first element, or nothing. -/
theorem step_represents {event : LoopEvent α} {fifo : Fifo α} (rep : s.Represents fifo)
    (taken : s.step event = .ok after) : ∃ next, after.Represents next := by
  cases step_inv taken with
  | publish outside => exact ⟨fifo, rep.keep rfl rfl rfl id⟩
  | loop outside free => exact ⟨fifo, rep.keep rfl rfl rfl (by simp [outside])⟩
  | returns tests quits free => exact ⟨fifo, rep.keep rfl rfl rfl (by simp [tests])⟩
  | blocks tests stays free => exact ⟨fifo, rep.keep rfl rfl rfl (by simp [tests])⟩
  | pollReturn wake polls woken => exact ⟨fifo, rep.keep rfl rfl rfl (by simp [polls])⟩
  | handleRead handles => exact ⟨fifo, rep.keep rfl rfl rfl (by simp [handles])⟩
  | doPendingFunctors handles => exact ⟨fifo, rep.keep rfl rfl rfl (by simp [handles])⟩
  | swap swaps =>
      have idle : s.queue.batch = [] := by
        by_contra some
        have runs := rep.batch some
        rw [swaps] at runs
        cases runs
      refine ⟨fifo, rep.consumed, ?_, rep.received, fun _ => rfl⟩
      rw [← rep.content]
      simp [BatchQueue.swap, BatchQueue.waiting, idle]
  | runFunctor functor queue runs next =>
      obtain ⟨front, same⟩ := BatchQueue.next_eq_some next
      have content : fifo.content = functor :: queue.waiting := by
        rw [← rep.content, same]
        simp [BatchQueue.waiting, front]
      refine ⟨fifo.pop 1, ?_, ?_, rep.received, fun _ => runs⟩
      · simp [rep.consumed, content]
      · simp [content]
  | endBatch runs free ended =>
      refine ⟨fifo, rep.consumed, rep.content, rep.received, fun some => ?_⟩
      exact absurd ended some
  | queueInLoop functor inside => exact ⟨_, rep.push functor rfl rfl rfl rfl⟩
  | ownerQueueInLoop functor outside => exact ⟨_, rep.push functor rfl rfl rfl rfl⟩
  | ownWakeup pushed => exact ⟨fifo, rep.keep rfl rfl rfl id⟩
  | ownQuit free inside => exact ⟨fifo, rep.keep rfl rfl rfl id⟩
  | push functor => exact ⟨_, rep.push functor rfl rfl rfl rfl⟩
  | wakeup index waits => exact ⟨fifo, rep.keep rfl rfl rfl id⟩
  | quit => exact ⟨fifo, rep.keep rfl rfl rfl id⟩
  | quitWakeup waits => exact ⟨fifo, rep.keep rfl rfl rfl id⟩

theorem reachable_represents (reached : Reachable step (create : EventLoop α) s) :
    ∃ fifo, s.Represents fifo := by
  apply reached.preserves (fun s => ∃ fifo, s.Represents fifo)
  · intro state event next rep taken
    obtain ⟨fifo, rep⟩ := rep
    exact step_represents rep taken
  · exact ⟨.empty, rfl, rfl, rfl, nofun⟩

theorem pushed_eq (reached : Reachable step (create : EventLoop α) s) :
    s.executed ++ s.queue.batch ++ s.queue.pending = s.pushed := by
  obtain ⟨fifo, rep⟩ := reachable_represents reached
  have balanced := fifo.balanced
  rw [← rep.consumed, ← rep.content, ← rep.received, BatchQueue.waiting] at balanced
  rw [List.append_assoc]
  exact balanced

/-- The functors run in the order in which they were pushed, each once and none left out, and
one that is pushed during a batch stands behind the whole batch. -/
theorem executed_in_order (events : List (LoopEvent α)) (s : EventLoop α)
    (reached : run step create events = .ok s) :
    s.executed <+: s.pushed ∧ s.executed ++ s.queue.batch ++ s.queue.pending = s.pushed ∧
      ∀ functor next, s.step (.push functor) = .ok next ∨
          s.step (.queueInLoop functor) = .ok next →
        next.pushed = (s.executed ++ s.queue.batch) ++ (s.queue.pending ++ [functor]) := by
  have reachable : Reachable step create s := ⟨events, reached⟩
  obtain ⟨fifo, rep⟩ := reachable_represents reachable
  have order := pushed_eq reachable
  refine ⟨?_, order, ?_⟩
  · rw [rep.consumed, rep.received]
    exact fifo.consumed_prefix
  · intro functor next taken
    have behind : next.pushed = s.pushed ++ [functor] := by
      rcases taken with taken | taken
      · obtain ⟨-, rfl⟩ := other_ok taken
        rfl
      · obtain ⟨-, -, rfl⟩ := own_ok taken
        rfl
    rw [behind, ← order, List.append_assoc]

/-- One turn of the loop with two functors, the first of which queues a third. -/
def busyTurn : List (LoopEvent Nat) :=
  [.publish, .loop, .test, .push 1, .wakeup 0, .push 2, .pollReturn true, .handleRead,
    .doPendingFunctors, .swap, .runFunctor, .queueInLoop 3, .ownWakeup, .runFunctor]

theorem executed_in_order_busyTurn :
    ∃ s, run step create busyTurn = .ok s ∧ s.executed = [1, 2] ∧ s.pushed = [1, 2, 3] ∧
      s.executed <+: s.pushed := by
  obtain ⟨s, reached, history⟩ := (map_ok_iff _ _ _).mp
    (show (run step create busyTurn).map (fun s => (s.executed, s.pushed)) =
      .ok ([1, 2], [1, 2, 3]) by decide +kernel)
  obtain ⟨executed, pushed⟩ := Prod.mk.inj history
  exact ⟨s, reached, executed, pushed, (executed_in_order busyTurn s reached).1⟩

end KamaWebserver.EventLoop
