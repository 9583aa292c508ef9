import KamaWebserver.LoopWakeup

set_option autoImplicit false

namespace KamaWebserver.EventLoop

open Outcome Transition

variable {α : Type} {s after : EventLoop α}

/-- A `quit()` that has been called makes the next test of `quit_` leave the loop, and neither
it nor a waiting functor leaves the thread blocked in `poll` with no wakeup under way. -/
structure Honoured (s : EventLoop α) : Prop where
  leaves : s.requested = true → ∀ next, s.step .test = .ok next → next.phase = .outside
  awake : s.phase = .poll → s.queue.pending ≠ [] ∨ s.requested = true →
    0 < s.wakeupFd ∨ s.waking ≠ [] ∨ 0 < s.quitting

/-- `loop()` is entered with no `quit()` behind it, and with no functor waiting unless a
write to the eventfd has been made or is about to be. -/
def StartsClean (s : EventLoop α) : LoopEvent α → Prop
  | .loop => s.requested = false ∧ s.Stirred
  | _ => True

instance (s : EventLoop α) : Decidable s.Stirred :=
  inferInstanceAs (Decidable (s.queue.pending ≠ [] →
    0 < s.wakeupFd ∨ s.waking ≠ [] ∨ s.ownWaking ≠ none))

instance (s : EventLoop α) : ∀ event, Decidable (s.StartsClean event)
  | .loop => inferInstanceAs (Decidable (s.requested = false ∧ s.Stirred))
  | .publish | .test | .pollReturn _ | .handleRead | .doPendingFunctors | .swap | .runFunctor
  | .endBatch | .queueInLoop _ | .ownerQueueInLoop _ | .ownWakeup | .ownQuit | .push _
  | .wakeup _ | .quit | .quitWakeup => isTrue trivial

/-- A request stands in `quit_`, and the thread in `poll` hears of it. -/
structure Heard (s : EventLoop α) : Prop where
  awake : s.Awake
  stands : s.requested = true → s.quit = true
  woken : s.phase = .poll → s.requested = true → 0 < s.wakeupFd ∨ 0 < s.quitting

/-- A step that leaves the request and the ways to hear of it alone. -/
theorem Heard.keep (heard : s.Heard) (awake : after.Awake)
    (requested : after.requested = s.requested)
    (quit : after.quit = s.quit) (woken : after.phase = .poll → s.phase = .poll)
    (wakeupFd : after.phase = .poll → after.wakeupFd = s.wakeupFd)
    (quitting : after.quitting = s.quitting) : after.Heard := by
  refine ⟨awake, ?_, ?_⟩
  · rw [requested, quit]
    exact heard.stands
  · intro polls
    rw [requested, quitting, wakeupFd polls]
    exact heard.woken (woken polls)

/-- A write to the eventfd is heard. -/
theorem Heard.write (heard : s.Heard) (awake : after.Awake)
    (requested : after.requested = s.requested) (quit : after.quit = s.quit) {counter : Nat}
    (written : after.wakeupFd = eventfdWrite counter) : after.Heard := by
  refine ⟨awake, ?_, ?_⟩
  · rw [requested, quit]
    exact heard.stands
  · intro _ _
    rw [written]
    exact Or.inl (eventfdWrite_pos counter)

theorem step_heard {event : LoopEvent α} (heard : s.Heard) (clean : s.StartsClean event)
    (taken : s.step event = .ok after) : after.Heard := by
  have awake : after.Awake := by
    apply step_awake heard.awake _ taken
    rintro rfl
    exact clean.2
  cases step_inv taken with
  | publish outside => exact heard.keep awake rfl rfl id (fun _ => rfl) rfl
  | loop outside free =>
      refine ⟨awake, fun requested => ?_, nofun⟩
      rw [clean.1] at requested
      cases requested
  | returns tests quits free => exact ⟨awake, nofun, nofun⟩
  | blocks tests stays free =>
      refine ⟨awake, heard.stands, fun _ requested => ?_⟩
      rw [heard.stands requested] at stays
      cases stays
  | pollReturn wake polls woken => exact heard.keep awake rfl rfl nofun nofun rfl
  | handleRead handles => exact heard.keep awake rfl rfl nofun nofun rfl
  | doPendingFunctors handles => exact heard.keep awake rfl rfl nofun nofun rfl
  | swap swaps => exact heard.keep awake rfl rfl nofun nofun rfl
  | runFunctor functor queue runs next => exact heard.keep awake rfl rfl id (fun _ => rfl) rfl
  | endBatch runs free ended => exact heard.keep awake rfl rfl nofun nofun rfl
  | queueInLoop functor inside => exact heard.keep awake rfl rfl id (fun _ => rfl) rfl
  | ownerQueueInLoop functor outside => exact heard.keep awake rfl rfl id (fun _ => rfl) rfl
  | ownWakeup pushed => exact heard.write awake rfl rfl rfl
  | ownQuit free inside =>
      refine ⟨awake, fun _ => rfl, fun polls => ?_⟩
      have phase : s.phase = .poll := polls
      simp [InCallback, phase] at inside
  | push functor => exact heard.keep awake rfl rfl id (fun _ => rfl) rfl
  | wakeup index waits => exact heard.write awake rfl rfl rfl
  | quit => exact ⟨awake, fun _ => rfl, fun _ _ => Or.inr (Nat.succ_pos _)⟩
  | quitWakeup waits => exact heard.write awake rfl rfl rfl

theorem Heard.honoured (heard : s.Heard) : s.Honoured := by
  refine ⟨?_, ?_⟩
  · intro requested next taken
    obtain ⟨-, -, rfl⟩ := own_ok taken
    simp only [testQuit, heard.stands requested, ↓reduceIte]
  · intro polls waits
    rcases waits with functors | requested
    · rcases heard.awake.stirred (by simp [polls, BehindSwap]) functors with
        readable | writing | own
      · exact Or.inl readable
      · exact Or.inr (Or.inl writing)
      · rw [heard.awake.own own] at polls
        cases polls
    · rcases heard.woken polls requested with readable | quitting
      · exact Or.inl readable
      · exact Or.inr (Or.inr quitting)

/-- In every run in which `loop()` is entered clean, requests are honoured. -/
theorem requests_honoured (events : List (LoopEvent α)) (s : EventLoop α)
    (clean : Guarded step StartsClean create events) (reached : run step create events = .ok s) :
    s.Honoured :=
  (run_preserves Heard (fun _ _ _ heard clean taken => step_heard heard clean taken)
    ⟨create_awake, nofun, nofun⟩ clean reached).honoured

/-- A functor queued by another thread before `loop()`, and a `quit()` during its first
`poll`. -/
theorem requests_honoured_first :
    ∃ s, run step create ([.publish, .push 1, .wakeup 0, .loop, .test, .quit] :
        List (LoopEvent Nat)) = .ok s ∧ s.phase = .poll ∧ s.requested = true ∧ s.Honoured := by
  obtain ⟨s, reached, ends⟩ := (map_ok_iff _ _ _).mp
    (show (run step create ([.publish, .push 1, .wakeup 0, .loop, .test, .quit] :
        List (LoopEvent Nat))).map (fun s => (s.phase, s.requested)) = .ok (.poll, true)
      by decide +kernel)
  obtain ⟨polls, requested⟩ := Prod.mk.inj ends
  exact ⟨s, reached, polls, requested, requests_honoured _ s (by decide +kernel) reached⟩

/-- A `quit()` between the publication and `loop()` is erased, and a functor that the owner
queues before `loop()` waits behind a blocked `poll`. -/
theorem earlyRequests_not_honoured :
    (¬ ∀ (events : List (LoopEvent Nat)) (s : EventLoop Nat), run step create events = .ok s →
      s.requested = true → ∀ next, s.step .test = .ok next → next.phase = .outside) ∧
    ¬ ∀ (events : List (LoopEvent Nat)) (s : EventLoop Nat), run step create events = .ok s →
      s.phase = .poll → s.queue.pending ≠ [] →
        0 < s.wakeupFd ∨ s.waking ≠ [] ∨ 0 < s.quitting := by
  constructor
  · intro always
    obtain ⟨s, reached, ends⟩ := (map_ok_iff _ _ _).mp
      (show (run step create ([.publish, .quit, .quitWakeup, .loop] : List (LoopEvent Nat))).map
        (fun s => (s.requested, (s.step .test).map (fun next => next.phase) |>.toOption)) =
          .ok (true, some .poll) by decide +kernel)
    obtain ⟨requested, blocks⟩ := Prod.mk.inj ends
    cases taken : s.step .test with
    | error fault => simp [taken, Except.map, Except.toOption] at blocks
    | ok next =>
        have leaves := always _ s reached requested next taken
        simp [taken, Except.map, Except.toOption, leaves] at blocks
  · intro always
    obtain ⟨s, reached, ends⟩ := (map_ok_iff _ _ _).mp
      (show (run step create ([.ownerQueueInLoop 1, .publish, .loop, .test] :
          List (LoopEvent Nat))).map
        (fun s => (s.phase, s.queue.pending, s.wakeupFd, s.waking, s.quitting)) =
          .ok (.poll, [1], 0, [], 0) by decide +kernel)
    simp only [Prod.mk.injEq] at ends
    obtain ⟨polls, waits, readable, writing, quitting⟩ := ends
    have woken := always _ s reached polls (by simp [waits])
    simp [readable, writing, quitting] at woken

end KamaWebserver.EventLoop
