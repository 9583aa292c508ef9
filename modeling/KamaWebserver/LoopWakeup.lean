import KamaWebserver.EventLoop

set_option autoImplicit false

namespace KamaWebserver.EventLoop

open Outcome Transition

variable {α : Type} {s after : EventLoop α}

/-- A functor that waits is on its way to be noticed: the eventfd is readable, or whoever
pushed is about to write to it. -/
def Stirred (s : EventLoop α) : Prop :=
  s.queue.pending ≠ [] → 0 < s.wakeupFd ∨ s.waking ≠ [] ∨ s.ownWaking ≠ none

/-- The phases whose next swap is behind the next `poll`. -/
def BehindSwap : LoopPhase → Prop
  | .test => True
  | .poll => True
  | .run => True
  | _ => False

/-- When a waiting functor must be stirred, and where the loop's own thread may be between
the two steps of `queueInLoop`. -/
structure Awake (s : EventLoop α) : Prop where
  stirred : BehindSwap s.phase → s.Stirred
  calling : s.callingPendingFunctors = true ↔ s.phase = .swap ∨ s.phase = .run
  own : s.ownWaking ≠ none → s.phase = .run

/-- A write to the eventfd makes it readable. -/
theorem stirred_of_write {counter : Nat} (written : s.wakeupFd = eventfdWrite counter) :
    s.Stirred := by
  intro _
  left
  rw [written]
  exact eventfdWrite_pos counter

/-- A step that leaves the queue and the ways to be noticed alone. -/
theorem Stirred.of_eq (stirred : s.Stirred) (pending : after.queue.pending = s.queue.pending)
    (wakeupFd : after.wakeupFd = s.wakeupFd) (waking : after.waking = s.waking)
    (ownWaking : after.ownWaking = s.ownWaking) : after.Stirred := by
  unfold Stirred
  rw [pending, wakeupFd, waking, ownWaking]
  exact stirred

/-- Outside `doPendingFunctors` the loop's own thread pushes without a wakeup. -/
theorem queueInLoop_ownWaking (awake : s.Awake) (functor : α) :
    (s.queueInLoop functor).ownWaking =
      if s.phase = .swap ∨ s.phase = .run then some s.pushed.length else none := by
  have calling := awake.calling
  by_cases inside : s.phase = .swap ∨ s.phase = .run
  · simp [queueInLoop, needsWakeup, calling.mpr inside, inside]
  · have quiet : s.callingPendingFunctors = false := by
      rw [← Bool.not_eq_true]
      exact fun calls => inside (calling.mp calls)
    simp [queueInLoop, needsWakeup, quiet, inside]

/-- A push by another thread leaves that thread on its way to the eventfd. -/
theorem push_waking (s : EventLoop α) (functor : α) :
    (s.push functor).waking = s.waking ++ [s.pushed.length] := by
  simp [push, needsWakeup]

theorem push_stirred (s : EventLoop α) (functor : α) : (s.push functor).Stirred := by
  intro _
  right
  left
  simp [push_waking]

theorem step_awake {event : LoopEvent α} (awake : s.Awake) (enters : event = .loop → s.Stirred)
    (taken : s.step event = .ok after) : after.Awake := by
  obtain ⟨stirred, calling, own⟩ := awake
  cases step_inv taken with
  | publish outside => exact ⟨stirred, calling, own⟩
  | loop outside free =>
      refine ⟨fun _ => enters rfl, ?_, fun some => absurd free some⟩
      simpa [outside] using calling
  | returns tests quits free =>
      refine ⟨nofun, ?_, fun some => absurd free some⟩
      simpa [tests] using calling
  | blocks tests stays free =>
      refine ⟨fun _ => stirred (by simp [tests, BehindSwap]), ?_, fun some => absurd free some⟩
      simpa [tests] using calling
  | pollReturn wake polls woken =>
      refine ⟨nofun, ?_, fun some => absurd (own some) (by simp [polls])⟩
      simpa [polls] using calling
  | handleRead handles =>
      refine ⟨nofun, ?_, fun some => absurd (own some) (by simp [handles])⟩
      simpa [handles] using calling
  | doPendingFunctors handles =>
      exact ⟨nofun, by simp, fun some => absurd (own some) (by simp [handles])⟩
  | swap swaps =>
      refine ⟨fun _ waits => absurd rfl waits, ?_, fun _ => rfl⟩
      simpa [swaps] using calling
  | runFunctor functor queue runs next =>
      obtain ⟨-, same⟩ := BatchQueue.next_eq_some next
      refine ⟨fun behind => (stirred behind).of_eq ?_ rfl rfl rfl, calling, own⟩
      rw [same]
  | endBatch runs free ended =>
      refine ⟨fun _ => stirred (by simp [runs, BehindSwap]), by simp, fun some => absurd free some⟩
  | queueInLoop functor inside =>
      have waking := queueInLoop_ownWaking ⟨stirred, calling, own⟩ functor
      cases phase : s.phase with
      | run =>
          have pushed : (s.queueInLoop functor).ownWaking ≠ none := by
            simp [waking, phase]
          exact ⟨fun _ _ => Or.inr (Or.inr pushed), calling, fun _ => phase⟩
      | handle wake =>
          have quiet : (s.queueInLoop functor).ownWaking = none := by
            simp [waking, phase]
          refine ⟨fun behind => ?_, calling, fun some => absurd quiet some⟩
          rw [show (s.queueInLoop functor).phase = _ from phase] at behind
          exact behind.elim
      | outside => simp [InCallback, phase] at inside
      | test => simp [InCallback, phase] at inside
      | poll => simp [InCallback, phase] at inside
      | swap => simp [InCallback, phase] at inside
  | ownerQueueInLoop functor outside =>
      have quiet : (s.queueInLoop functor).ownWaking = none := by
        rw [queueInLoop_ownWaking ⟨stirred, calling, own⟩ functor]
        simp [outside]
      refine ⟨fun behind => ?_, calling, fun some => absurd quiet some⟩
      rw [show (s.queueInLoop functor).phase = _ from outside] at behind
      exact behind.elim
  | ownWakeup pushed => exact ⟨fun _ => stirred_of_write rfl, calling, fun some => absurd rfl some⟩
  | ownQuit free inside => exact ⟨stirred, calling, own⟩
  | push functor => exact ⟨fun _ => push_stirred s functor, calling, own⟩
  | wakeup index waits => exact ⟨fun _ => stirred_of_write rfl, calling, own⟩
  | quit => exact ⟨stirred, calling, own⟩
  | quitWakeup waits => exact ⟨fun _ => stirred_of_write rfl, calling, own⟩

theorem create_awake : (create : EventLoop α).Awake :=
  ⟨nofun, by simp [create], fun some => absurd rfl some⟩

/-- The owner queues nothing outside `loop()`. -/
def InLoop (_ : EventLoop α) (event : LoopEvent α) : Prop :=
  ∀ functor, event ≠ .ownerQueueInLoop functor

/-- Then functors that wait are stirred outside the loop as well. -/
theorem step_stirred_outside {event : LoopEvent α} (awake : s.Awake)
    (outside : s.phase = .outside → s.Stirred) (inLoop : s.InLoop event)
    (taken : s.step event = .ok after) (ends : after.phase = .outside) : after.Stirred := by
  cases step_inv taken with
  | publish _ => exact outside ends
  | returns tests quits free => exact awake.stirred (by simp [tests, BehindSwap])
  | queueInLoop functor inside =>
      have phase : s.phase = .outside := ends
      simp [InCallback, phase] at inside
  | ownerQueueInLoop functor _ => exact absurd rfl (inLoop functor)
  | runFunctor functor queue runs next => exact absurd (runs.symm.trans ends) (by simp)
  | ownWakeup pushed => exact stirred_of_write rfl
  | ownQuit free inside => exact outside ends
  | push functor => exact push_stirred s functor
  | wakeup index waits => exact stirred_of_write rfl
  | quit => exact outside ends
  | quitWakeup waits => exact stirred_of_write rfl
  | loop _ _ => cases ends
  | blocks tests stays free => cases ends
  | pollReturn wake polls woken => cases ends
  | handleRead handles => cases ends
  | doPendingFunctors handles => cases ends
  | swap swaps => cases ends
  | endBatch runs free ended => cases ends

/-- While the loop is blocked in `poll` with functors waiting, the eventfd is readable or a
thread that has pushed is about to write to it. -/
theorem no_lost_wakeup (events : List (LoopEvent α)) (s : EventLoop α)
    (inLoop : ∀ functor, .ownerQueueInLoop functor ∉ events)
    (reached : run step create events = .ok s) :
    s.phase = .poll → s.queue.pending ≠ [] → 0 < s.wakeupFd ∨ s.waking ≠ [] := by
  have guarded : Guarded step InLoop create events := by
    apply guarded_of_forall
    intro event inside _ functor same
    rw [same] at inside
    exact inLoop functor inside
  obtain ⟨awake, -⟩ := run_preserves
    (fun s => s.Awake ∧ (s.phase = .outside → s.Stirred))
    (by
      intro state event next holds calls taken
      refine ⟨step_awake holds.1 ?_ taken, step_stirred_outside holds.1 holds.2 calls taken⟩
      rintro rfl
      obtain ⟨-, outside, -⟩ := own_ok taken
      exact holds.2 outside)
    ⟨create_awake, fun _ waits => absurd rfl waits⟩ guarded reached
  intro polls waits
  rcases awake.stirred (by simp [polls, BehindSwap]) waits with readable | writing | own
  · exact Or.inl readable
  · exact Or.inr writing
  · rw [awake.own own] at polls
    cases polls

/-- A push that lands after the swap of a turn and before the next `poll`. -/
theorem no_lost_wakeup_between :
    ∃ s, run step create ([.publish, .loop, .test, .pollReturn false, .doPendingFunctors, .swap,
        .push 1, .endBatch, .test, .wakeup 0] : List (LoopEvent Nat)) = .ok s ∧
      s.phase = .poll ∧ s.queue.pending = [1] ∧ (0 < s.wakeupFd ∨ s.waking ≠ []) := by
  obtain ⟨s, reached, ends⟩ := (map_ok_iff _ _ _).mp
    (show (run step create ([.publish, .loop, .test, .pollReturn false, .doPendingFunctors,
        .swap, .push 1, .endBatch, .test, .wakeup 0] : List (LoopEvent Nat))).map
      (fun s => (s.phase, s.queue.pending)) = .ok (.poll, [1]) by decide +kernel)
  obtain ⟨polls, waits⟩ := Prod.mk.inj ends
  exact ⟨s, reached, polls, waits,
    no_lost_wakeup _ s (by simp) reached polls (by simp [waits])⟩

end KamaWebserver.EventLoop
