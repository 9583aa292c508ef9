import KamaWebserver.FunctorOrder

set_option autoImplicit false

namespace KamaWebserver.EventLoop

open Outcome Transition

variable {α : Type} {s after : EventLoop α}

/-- The loop is between the swap of a turn and the next `poll`, where a set `quit_` ends it
without another swap. -/
def PastSwap : LoopPhase → Prop
  | .test => True
  | .run => True
  | _ => False

instance : ∀ phase, Decidable (PastSwap phase)
  | .test | .run => isTrue trivial
  | .outside | .poll | .handle _ | .swap => isFalse id

/-- `quit()` is not called past the swap of a turn while a functor waits whose `queueInLoop`
has returned. -/
def QuitsCaughtUp (s : EventLoop α) : LoopEvent α → Prop
  | .quit | .ownQuit =>
      PastSwap s.phase → ∀ position < s.pushed.length, s.Completed position →
        position < s.executed.length + s.queue.batch.length
  | _ => True

instance (s : EventLoop α) : ∀ event, Decidable (s.QuitsCaughtUp event)
  | .quit | .ownQuit =>
      inferInstanceAs (Decidable (PastSwap s.phase → ∀ position < s.pushed.length,
        s.Completed position → position < s.executed.length + s.queue.batch.length))
  | .publish | .loop | .test | .pollReturn _ | .handleRead | .doPendingFunctors | .swap
  | .runFunctor | .endBatch | .queueInLoop _ | .ownerQueueInLoop _ | .ownWakeup | .push _
  | .wakeup _ | .quitWakeup => isTrue trivial

/-- The functors due at a `quit()` will have run before a set `quit_` ends the loop. -/
structure Accounted (s : EventLoop α) : Prop where
  reachable : Reachable step create s
  due : ∀ position ∈ s.due, s.Completed position
  reach : s.quit = true → PastSwap s.phase → ∀ position ∈ s.due,
    position < s.executed.length + s.queue.batch.length
  dropped : s.dropped = []

/-- Whatever has been pushed has run, is in the batch, or waits. -/
theorem pushed_length (reached : Reachable step (create : EventLoop α) s) :
    s.pushed.length = s.executed.length + s.queue.batch.length + s.queue.pending.length := by
  have split := congrArg List.length (pushed_eq reached)
  simp only [List.length_append] at split
  omega

/-- A completed call stays completed when the functors and the calls on the way to the eventfd
grow by new positions only. -/
theorem Completed.mono {position : Nat} (completed : s.Completed position)
    (pushed : s.pushed.length ≤ after.pushed.length)
    (waking : ∀ other ∈ after.waking, other ∈ s.waking ∨ s.pushed.length ≤ other)
    (ownWaking : ∀ other, after.ownWaking = some other →
      s.ownWaking = some other ∨ s.pushed.length ≤ other) : after.Completed position := by
  obtain ⟨inside, quiet, own⟩ := completed
  refine ⟨by omega, fun wakes => ?_, fun wakes => ?_⟩
  · rcases waking position wakes with old | new
    · exact quiet old
    · omega
  · rcases ownWaking position wakes with old | new
    · exact own old
    · omega

theorem Accounted.of_step (accounted : s.Accounted) (reachable : Reachable step create after)
    (due : after.due = s.due) (completed : ∀ position, s.Completed position →
      after.Completed position)
    (reach : after.quit = true → PastSwap after.phase → s.quit = true ∧ PastSwap s.phase ∧
      s.executed.length + s.queue.batch.length ≤
        after.executed.length + after.queue.batch.length)
    (dropped : after.dropped = s.dropped) : after.Accounted := by
  refine ⟨reachable, ?_, ?_, dropped.trans accounted.dropped⟩
  · rw [due]
    exact fun position inside => completed position (accounted.due position inside)
  · intro quits past position inside
    rw [due] at inside
    obtain ⟨before, behind, grown⟩ := reach quits past
    have known := accounted.reach before behind position inside
    omega

/-- A functor that is pushed now is not yet due. -/
theorem queueInLoop_completed (functor : α) {position : Nat} (completed : s.Completed position) :
    (s.queueInLoop functor).Completed position := by
  apply completed.mono
  · simp [queueInLoop, emplaceBack]
  · exact fun other inside => Or.inl inside
  · intro other wakes
    right
    by_cases calls : needsWakeup true s.callingPendingFunctors = true
    · simp only [queueInLoop, calls, ↓reduceIte, Option.some.injEq] at wakes
      omega
    · simp [queueInLoop, calls] at wakes

theorem push_completed (functor : α) {position : Nat} (completed : s.Completed position) :
    (s.push functor).Completed position := by
  apply completed.mono
  · simp [push, emplaceBack]
  · intro other inside
    simp only [push, needsWakeup, Bool.not_false, Bool.true_or, ↓reduceIte, List.mem_append,
      List.mem_singleton] at inside
    rcases inside with old | new
    · exact Or.inl old
    · right
      omega
  · exact fun other wakes => Or.inl wakes

/-- Nothing is left of a batch outside `doPendingFunctors`. -/
theorem batch_eq_nil (reached : Reachable step (create : EventLoop α) s) (other : s.phase ≠ .run) :
    s.queue.batch = [] := by
  obtain ⟨fifo, rep⟩ := reachable_represents reached
  by_contra some
  exact other (rep.batch some)

/-- The functors due at a `quit()` that is called when all that is due will still run. -/
theorem Accounted.setQuit (accounted : s.Accounted) (reachable : Reachable step create after)
    (caughtUp : PastSwap s.phase → ∀ position < s.pushed.length, s.Completed position →
      position < s.executed.length + s.queue.batch.length)
    (due : after.due = s.setQuit.due) (completed : ∀ position, s.Completed position →
      after.Completed position)
    (phase : after.phase = s.phase) (executed : after.executed = s.executed)
    (queue : after.queue = s.queue) (dropped : after.dropped = s.dropped) : after.Accounted := by
  have settled : ∀ position ∈ after.due, s.Completed position := by
    intro position inside
    rw [due, EventLoop.setQuit, List.mem_append, List.mem_filter] at inside
    rcases inside with old | new
    · exact accounted.due position old
    · simpa using new.2
  refine ⟨reachable, fun position inside => completed position (settled position inside), ?_,
    dropped.trans accounted.dropped⟩
  intro _ past position inside
  rw [phase] at past
  rw [executed, queue]
  have known := settled position inside
  exact caughtUp past position known.1 known

theorem step_accounted {event : LoopEvent α} (accounted : s.Accounted)
    (caughtUp : s.QuitsCaughtUp event) (taken : s.step event = .ok after) : after.Accounted := by
  have reachable := accounted.reachable.snoc taken
  cases step_inv taken with
  | publish outside =>
      exact accounted.of_step reachable rfl (fun _ completed => completed)
        (fun quits past => ⟨quits, past, Nat.le_refl _⟩) rfl
  | loop outside free =>
      exact accounted.of_step reachable rfl (fun _ completed => completed)
        (fun quits => by simp at quits) rfl
  | returns tests quits free =>
      refine ⟨reachable, accounted.due, fun _ past => False.elim past, ?_⟩
      have ended := batch_eq_nil accounted.reachable (by simp [tests])
      have reach := accounted.reach quits (by simp [tests, PastSwap])
      rw [ended] at reach
      rw [accounted.dropped, List.nil_append, List.filter_eq_nil_iff]
      intro position inside late
      have ran := reach position inside
      rw [List.length_nil] at ran
      rw [decide_eq_true_eq] at late
      omega
  | blocks tests stays free =>
      exact accounted.of_step reachable rfl (fun _ completed => completed)
        (fun _ past => False.elim past) rfl
  | pollReturn wake polls woken =>
      exact accounted.of_step reachable rfl (fun _ completed => completed)
        (fun _ past => False.elim past) rfl
  | handleRead handles =>
      exact accounted.of_step reachable rfl (fun _ completed => completed)
        (fun _ past => False.elim past) rfl
  | doPendingFunctors handles =>
      exact accounted.of_step reachable rfl (fun _ completed => completed)
        (fun _ past => False.elim past) rfl
  | swap swaps =>
      refine ⟨reachable, accounted.due, ?_, accounted.dropped⟩
      intro _ _ position inside
      have total := pushed_length accounted.reachable
      have pushed := (accounted.due position inside).1
      rw [batch_eq_nil accounted.reachable (by simp [swaps])] at total
      simp only [List.length_nil] at total
      simp only [BatchQueue.swap]
      omega
  | runFunctor functor queue runs next =>
      refine accounted.of_step reachable rfl (fun _ completed => completed) ?_ rfl
      intro quits past
      obtain ⟨front, -⟩ := BatchQueue.next_eq_some next
      refine ⟨quits, past, ?_⟩
      simp only [front, List.length_cons, List.length_append, List.length_nil]
      omega
  | endBatch runs free ended =>
      exact accounted.of_step reachable rfl (fun _ completed => completed)
        (fun quits _ => ⟨quits, by simp [runs, PastSwap], Nat.le_refl _⟩) rfl
  | queueInLoop functor inside =>
      exact accounted.of_step reachable rfl (fun _ => queueInLoop_completed functor)
        (fun quits past => ⟨quits, past, Nat.le_refl _⟩) rfl
  | ownerQueueInLoop functor outside =>
      exact accounted.of_step reachable rfl (fun _ => queueInLoop_completed functor)
        (fun quits past => ⟨quits, past, Nat.le_refl _⟩) rfl
  | ownWakeup pushed =>
      exact accounted.of_step reachable rfl
        (fun _ completed => ⟨completed.1, completed.2.1, by simp⟩)
        (fun quits past => ⟨quits, past, Nat.le_refl _⟩) rfl
  | ownQuit free inside =>
      exact accounted.setQuit reachable caughtUp rfl (fun _ completed => completed) rfl rfl rfl rfl
  | push functor =>
      exact accounted.of_step reachable rfl (fun _ => push_completed functor)
        (fun quits past => ⟨quits, past, Nat.le_refl _⟩) rfl
  | wakeup index waits =>
      refine accounted.of_step reachable rfl (fun _ completed => ?_)
        (fun quits past => ⟨quits, past, Nat.le_refl _⟩) rfl
      exact ⟨completed.1, fun inside => completed.2.1 (List.mem_of_mem_eraseIdx inside),
        completed.2.2⟩
  | quit =>
      exact accounted.setQuit reachable caughtUp rfl (fun _ completed => completed) rfl rfl rfl rfl
  | quitWakeup waits =>
      exact accounted.of_step reachable rfl (fun _ completed => completed)
        (fun quits past => ⟨quits, past, Nat.le_refl _⟩) rfl

/-- In every run in which no `quit()` is called past the swap of a turn while a functor waits
whose `queueInLoop` has returned, `loop()` returns only after all that was due has run. -/
theorem dropped_eq_nil (events : List (LoopEvent α)) (s : EventLoop α)
    (caughtUp : Guarded step QuitsCaughtUp create events)
    (reached : run step create events = .ok s) : s.dropped = [] :=
  (run_preserves Accounted
    (fun _ _ _ accounted caughtUp taken => step_accounted accounted caughtUp taken)
    ⟨⟨[], rfl⟩, nofun, nofun, rfl⟩ caughtUp reached).dropped

/-- A functor and a `quit()` while the loop is blocked in `poll`. -/
def quitInPoll : List (LoopEvent Nat) :=
  [.publish, .loop, .test, .push 1, .wakeup 0, .quit, .quitWakeup, .pollReturn true, .handleRead,
    .doPendingFunctors, .swap, .runFunctor, .endBatch, .test]

theorem dropped_eq_nil_quitInPoll :
    ∃ s, run step create quitInPoll = .ok s ∧ s.phase = .outside ∧ s.executed = [1] ∧
      s.due = [0] ∧ s.dropped = [] := by
  obtain ⟨s, reached, ends⟩ := (map_ok_iff _ _ _).mp
    (show (run step create quitInPoll).map (fun s => (s.phase, s.executed, s.due)) =
      .ok (.outside, [1], [0]) by decide +kernel)
  simp only [Prod.mk.injEq] at ends
  obtain ⟨outside, executed, due⟩ := ends
  exact ⟨s, reached, outside, executed, due,
    dropped_eq_nil quitInPoll s (by decide +kernel) reached⟩

/-- A functor and a `quit()` while the loop runs an earlier batch: `loop()` returns without
running the functor. -/
theorem quitInBatch_drops :
    ¬ ∀ (events : List (LoopEvent Nat)) (s : EventLoop Nat),
      run step create events = .ok s → s.dropped = [] := by
  intro always
  obtain ⟨s, reached, dropped⟩ := (map_ok_iff _ _ _).mp
    (show (run step create ([.publish, .loop, .test, .push 1, .wakeup 0, .pollReturn true,
        .handleRead, .doPendingFunctors, .swap, .push 2, .wakeup 0, .quit, .quitWakeup,
        .runFunctor, .endBatch, .test] : List (LoopEvent Nat))).map (fun s => s.dropped) =
          .ok [1] by decide +kernel)
  have none := always _ s reached
  rw [dropped] at none
  cases none

end KamaWebserver.EventLoop
