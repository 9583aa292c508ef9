import KamaWebserver.LoopThreadStart
import Mathlib.Algebra.Order.BigOperators.Group.Finset

set_option autoImplicit false

namespace KamaWebserver

open Outcome Transition

/-- The steps the main thread has left in `start`; `unset` says that `loop_` of the thread at
hand is still null. -/
def LoopPoolPhase.remaining (numThreads : Nat) (unset : Bool) : LoopPoolPhase → Nat
  | .idle => 6 * numThreads + 2
  | .create k => 6 * (numThreads - k) + 1
  | .semWait k => 6 * (numThreads - (k + 1)) + 6
  | .lock k => 6 * (numThreads - (k + 1)) + if unset then 5 else 3
  | .test k => 6 * (numThreads - (k + 1)) + if unset then 4 else 2
  | .wait k => 6 * (numThreads - (k + 1)) + 3
  | .serving | .check _ | .quit _ | .wakeup _ _ | .join _ | .gone => 0

/-- The thread the main thread is starting. -/
def LoopPoolPhase.current : LoopPoolPhase → Nat
  | .create k | .semWait k | .lock k | .test k | .wait k | .check k | .quit k | .wakeup k _
  | .join k => k
  | .idle | .serving | .gone => 0

/-- The steps a thread has left to `loop()`. -/
def ThreadPhase.remaining (phase : ThreadPhase) : Nat := 9 - phase.rank

namespace LoopThreadPool

open LoopPoolPhase

/-- The steps `start` has left, of all threads together. -/
def remaining (s : LoopThreadPool) : Nat :=
  s.phase.remaining s.numThreads (s.threads s.phase.current).loop.isNone +
    ∑ i ∈ Finset.range s.numThreads, (s.threads i).phase.remaining

variable {s after : LoopThreadPool} {i : Nat}

/-- A thread moves on. -/
theorem sum_update_lt {threads : Nat → LoopThread} {numThreads : Nat} (next : LoopThread)
    (inside : i < numThreads)
    (less : next.phase.remaining < (threads i).phase.remaining) :
    ∑ j ∈ Finset.range numThreads, (Function.update threads i next j).phase.remaining <
      ∑ j ∈ Finset.range numThreads, (threads j).phase.remaining := by
  apply Finset.sum_lt_sum
  · intro j _
    by_cases same : j = i
    · subst same
      rw [Function.update_self]
      exact Nat.le_of_lt less
    · rw [Function.update_of_ne same]
  · refine ⟨i, Finset.mem_range.mpr inside, ?_⟩
    rw [Function.update_self]
    exact less

/-- No thread goes back. -/
theorem sum_update_le {threads : Nat → LoopThread} {next : LoopThread} (numThreads : Nat)
    (less : next.phase.remaining ≤ (threads i).phase.remaining) :
    ∑ j ∈ Finset.range numThreads, (Function.update threads i next j).phase.remaining ≤
      ∑ j ∈ Finset.range numThreads, (threads j).phase.remaining := by
  refine Finset.sum_le_sum fun j _ => ?_
  by_cases here : j = i
  · subst here
    rw [Function.update_self]
    exact less
  · rw [Function.update_of_ne here]

/-- A step of a thread on its way, while the main thread keeps its place. -/
theorem remaining_of_moved {next : LoopThread}
    (threads : after.threads = Function.update s.threads i next)
    (fixed : after.numThreads = s.numThreads)
    (less : ∑ j ∈ Finset.range s.numThreads,
        (Function.update s.threads i next j).phase.remaining <
      ∑ j ∈ Finset.range s.numThreads, (s.threads j).phase.remaining)
    (kept : after.phase.remaining s.numThreads (after.threads after.phase.current).loop.isNone ≤
      s.phase.remaining s.numThreads (s.threads s.phase.current).loop.isNone) :
    after.remaining + 1 ≤ s.remaining := by
  unfold remaining
  rw [fixed, threads] at *
  omega

/-- A step of the main thread in `start` that takes no thread back. -/
theorem remaining_of_main {next : LoopThread}
    (threads : after.threads = Function.update s.threads i next)
    (fixed : after.numThreads = s.numThreads)
    (kept : next.phase.remaining ≤ (s.threads i).phase.remaining)
    (shrinks : after.phase.remaining s.numThreads (after.threads after.phase.current).loop.isNone <
      s.phase.remaining s.numThreads (s.threads s.phase.current).loop.isNone) :
    after.remaining + 1 ≤ s.remaining := by
  have rest := sum_update_le s.numThreads kept
  unfold remaining
  rw [fixed, threads] at *
  omega

theorem main_progress (sound : s.Sound) (taken : s.stepMain = .ok after)
    (starting : after.phase.returned = false) :
    s.phase.returned = false ∧ after.remaining + 1 ≤ s.remaining := by
  have bounded := sound.bounded
  unfold stepMain at taken
  cases phase : s.phase with
  | idle =>
      rw [phase] at taken
      cases taken
      refine ⟨rfl, ?_⟩
      simp only [remaining, setPhase, phase, LoopPoolPhase.remaining]
      omega
  | create i =>
      rw [phase] at taken bounded
      dsimp only at taken
      split at taken
      · rename_i more
        cases taken
        have follows := sound.threads i
        rw [phase, turn, around_self] at follows
        refine ⟨rfl, remaining_of_main (i := i) rfl rfl ?_ ?_⟩
        · obtain ⟨before, quit, allowed, same⟩ := follows
          have unborn : before = .unborn := by
            revert allowed
            cases before <;> cases quit <;> decide
          rw [same, unborn]
          show 8 ≤ 9
          decide
        · simp only [setPhase, setThread, phase, LoopPoolPhase.remaining]
          omega
      · cases taken
        cases starting
  | semWait i =>
      rw [phase] at taken bounded
      obtain ⟨-, taken⟩ := guard_ok taken
      cases taken
      refine ⟨rfl, remaining_of_main (i := i) rfl rfl (Nat.le_refl _) ?_⟩
      simp only [setPhase, setThread, phase, LoopPoolPhase.remaining]
      split <;> omega
  | lock i =>
      rw [phase] at taken bounded
      obtain ⟨-, taken⟩ := guard_ok taken
      cases taken
      refine ⟨rfl, remaining_of_main (i := i) rfl rfl (Nat.le_refl _) ?_⟩
      simp only [setPhase, setThread, phase, LoopPoolPhase.remaining, current, Function.update_self]
      split <;> omega
  | test i =>
      rw [phase] at taken bounded
      dsimp only at taken
      cases found : (s.threads i).loop with
      | some loop =>
          rw [found] at taken
          cases taken
          refine ⟨rfl, remaining_of_main (i := i) rfl rfl (Nat.le_refl _) ?_⟩
          simp only [phase, LoopPoolPhase.remaining, current, found, Option.isNone_some,
            Bool.false_eq_true, if_false]
          omega
      | none =>
          rw [found] at taken
          cases taken
          refine ⟨rfl, remaining_of_main (i := i) rfl rfl (Nat.le_refl _) ?_⟩
          simp only [setPhase, setThread, phase, LoopPoolPhase.remaining, current, found,
            Option.isNone_none, if_true]
          omega
  | wait | gone =>
      rw [phase] at taken
      cases taken
  | serving =>
      rw [phase] at taken
      cases taken
      cases starting
  | check i =>
      rw [phase] at taken
      dsimp only at taken
      split at taken
      · split at taken <;> cases taken <;> cases starting
      · cases taken
        cases starting
  | quit i =>
      rw [phase] at taken
      dsimp only at taken
      split at taken
      · obtain ⟨stopped, -, rest⟩ := (bind_ok_iff _ _ _).mp taken
        cases rest
        cases starting
      · cases taken
  | wakeup i loop =>
      rw [phase] at taken
      obtain ⟨woken, -, rest⟩ := (bind_ok_iff _ _ _).mp taken
      cases rest
      cases starting
  | join i =>
      rw [phase] at taken
      obtain ⟨-, taken⟩ := guard_ok taken
      cases taken
      cases starting

theorem turn_starting {numThreads : Nat} {phase : LoopPoolPhase}
    (starting : phase.returned = false) :
    phase.turn numThreads i ∈ [.before, .semWait, .lock, .test, .wait, .up] := by
  cases phase <;> simp only [returned, turn, around] at * <;> grind

theorem turn_inside {numThreads : Nat} {phase : LoopPoolPhase} (bounded : phase.Bounded numThreads)
    (begun : phase.turn numThreads i ≠ .before) : i < numThreads := by
  cases phase <;> simp only [Bounded, turn, around] at * <;> grind

/-- A thread that moves while `start` runs is on its way to `loop()`. -/
theorem next_remaining {turn : Turn} {phase : ThreadPhase} {quit : Bool}
    (starting : turn ∈ [.before, .semWait, .lock, .test, .wait, .up])
    (allowed : turn.allows phase quit = true) (ready : phase.ready turn quit = true) :
    turn ≠ .before ∧ phase.next.remaining < phase.remaining := by
  revert starting allowed ready
  cases turn <;> cases phase <;> cases quit <;> decide

/-- What is published stays so. -/
theorem next_published {turn : Turn} {phase : ThreadPhase} {quit : Bool}
    (starting : turn ∈ [.before, .semWait, .lock, .test, .wait, .up])
    (allowed : turn.allows phase quit = true) (published : 7 ≤ phase.rank ∧ phase.rank ≤ 11)
    (ready : phase.ready turn quit = true) :
    7 ≤ phase.next.rank ∧ phase.next.rank ≤ 11 := by
  revert starting allowed published ready
  cases turn <;> cases phase <;> cases quit <;> decide

theorem remaining_mono (phase : LoopPoolPhase) (numThreads : Nat) {unset unset' : Bool}
    (published : unset' = true → unset = true) :
    phase.remaining numThreads unset' ≤ phase.remaining numThreads unset := by
  cases unset with
  | true => cases phase <;> cases unset' <;> simp [LoopPoolPhase.remaining]
  | false =>
      have still : unset' = false := by simpa using published
      rw [still]

theorem thread_progress (sound : s.Sound) (taken : s.stepThread i = .ok after)
    (starting : s.phase.returned = false) : after.remaining + 1 ≤ s.remaining := by
  obtain ⟨phase, quit, allowed, same, steps⟩ := stepThread_at sound i
  rw [steps] at taken
  obtain ⟨ready, taken⟩ := guard_ok taken
  cases taken
  obtain ⟨begun, less⟩ := next_remaining (turn_starting starting) allowed ready
  have passes : phase.next.remaining < (s.threads i).phase.remaining := by
    rw [same]
    exact less
  have rest := sum_update_lt (.at s.callback i ((s.phase.turn s.numThreads i).notified phase)
    phase.next (phase.quitAfter quit)) (turn_inside sound.bounded begun) passes
  refine remaining_of_moved (i := i) rfl rfl rest ?_
  by_cases wakes : phase = .publish ∧ s.phase = .wait i
  · obtain ⟨published, waits⟩ := wakes
    simp only [setThread, setPhase, waits, current, LoopPoolPhase.remaining,
      Function.update_self, published, and_self, if_true]
    exact Nat.le_refl _
  · simp only [setThread, setPhase, if_neg wakes]
    refine remaining_mono _ _ fun unset => ?_
    by_cases here : s.phase.current = i
    · rw [here, Function.update_self] at unset
      rw [here, same]
      by_contra published
      have past : 7 ≤ phase.rank ∧ phase.rank ≤ 11 := by
        by_contra early
        exact published (by simp [LoopThread.at, early])
      have later := next_published (turn_starting starting) allowed past ready
      simp [LoopThread.at, later] at unset
    · rw [Function.update_of_ne here] at unset
      exact unset

theorem remaining_lock_le (numThreads k : Nat) (unset : Bool) :
    (LoopPoolPhase.lock k).remaining numThreads unset ≤ (LoopPoolPhase.wait k).remaining numThreads
      unset + 2 := by
  cases unset <;> simp [LoopPoolPhase.remaining]

theorem step_progress {event : LoopPoolEvent} (sound : s.Sound) (noQuit : NoQuit s event)
    (taken : s.step event = .ok after) (starting : after.phase.returned = false) :
    s.phase.returned = false ∧
      after.remaining + 1 ≤ s.remaining + if event = .spurious then 3 else 0 := by
  cases event with
  | main => exact main_progress sound taken starting
  | thread i =>
      have before : s.phase.returned = false := by
        obtain ⟨phase, quit, -, -, steps⟩ := stepThread_at sound i
        rw [step, steps] at taken
        obtain ⟨-, taken⟩ := guard_ok taken
        cases taken
        by_cases wakes : phase = .publish ∧ s.phase = .wait i
        · rw [wakes.2]
          rfl
        · simpa only [setPhase, if_neg wakes] using starting
      exact ⟨before, thread_progress sound taken before⟩
  | spurious =>
      simp only [step] at taken
      cases phase : s.phase with
      | wait i =>
          rw [phase] at taken
          cases taken
          refine ⟨rfl, ?_⟩
          have again := remaining_lock_le s.numThreads i (s.threads i).loop.isNone
          show (LoopPoolPhase.lock i).remaining s.numThreads _ + _ + 1 ≤ s.remaining + 3
          simp only [remaining, setPhase, phase, current]
          simp only [LoopPoolPhase.remaining] at again ⊢
          omega
      | idle | create | semWait | lock | test | serving | check | quit | wakeup | join | gone =>
          rw [phase] at taken
          cases taken
  | quit => exact noQuit.elim
  | wakeup i =>
      simp only [step, sound.quiet, List.not_mem_nil, if_false] at taken
      cases taken

/-- Somebody can go on. -/
def Enabled (s : LoopThreadPool) (event : LoopPoolEvent) : Prop := ∃ after, s.step event = .ok after

theorem thread_enabled (sound : s.Sound) {turn : Turn} {phase : ThreadPhase} {quit : Bool}
    (here : s.phase.turn s.numThreads i = turn)
    (same : s.threads i = .at s.callback i turn phase quit)
    (ready : phase.ready turn quit = true) : s.Enabled (.thread i) := by
  obtain ⟨phase', quit', -, same', steps⟩ := stepThread_at sound i
  have phases : phase = phase' := congrArg LoopThread.phase (same.symm.trans same')
  have quits : quit = quit' := congrArg LoopThread.quit (same.symm.trans same')
  rw [here, ← phases, ← quits] at steps
  exact ⟨_, steps.trans (if_pos ready)⟩

/-- Until `start` has returned some thread can go on, and not by a spurious wakeup. -/
theorem start_enabled (sound : s.Sound) (starting : s.phase.returned = false) :
    s.Enabled .main ∨ ∃ i, s.Enabled (.thread i) := by
  cases phase : s.phase with
  | idle => exact .inl ⟨_, by rw [step, stepMain, phase]⟩
  | create i =>
      by_cases more : i < s.numThreads
      · exact .inl ⟨_, by rw [step, stepMain, phase]; exact if_pos more⟩
      · exact .inl ⟨_, by rw [step, stepMain, phase]; exact if_neg more⟩
  | semWait i =>
      obtain ⟨at', quit, allowed, same⟩ := sound.threads i
      have here : s.phase.turn s.numThreads i = .semWait := by rw [phase, turn, around_self]
      rw [here] at allowed same
      by_cases posted : 3 ≤ at'.rank
      · have sem : 0 < (s.threads i).sem := by simp [same, LoopThread.at, posted]
        exact .inl ⟨_, by rw [step, stepMain, phase]; exact if_pos sem⟩
      · refine .inr ⟨i, thread_enabled sound here same ?_⟩
        revert allowed posted
        cases at' <;> cases quit <;> decide
  | lock i =>
      obtain ⟨at', quit, allowed, same⟩ := sound.threads i
      have here : s.phase.turn s.numThreads i = .lock := by rw [phase, turn, around_self]
      rw [here] at allowed same
      by_cases held : at' = .publish ∨ at' = .unlock
      · refine .inr ⟨i, thread_enabled sound here same ?_⟩
        rcases held with rfl | rfl <;> rfl
      · have free : (s.threads i).holder = none := by
          rw [same]
          revert allowed held
          cases at' <;> cases quit <;> simp [LoopThread.at, Turn.allows, ThreadPhase.rank]
        exact .inl ⟨_, by rw [step, stepMain, phase]; exact if_pos free⟩
  | test i =>
      cases found : (s.threads i).loop with
      | some loop => exact .inl ⟨_, by rw [step, stepMain, phase]; simp only [found]; rfl⟩
      | none => exact .inl ⟨_, by rw [step, stepMain, phase]; simp only [found]; rfl⟩
  | wait i =>
      obtain ⟨at', quit, allowed, same⟩ := sound.threads i
      have here : s.phase.turn s.numThreads i = .wait := by rw [phase, turn, around_self]
      rw [here] at allowed same
      refine .inr ⟨i, thread_enabled sound here same ?_⟩
      revert allowed
      cases at' <;> cases quit <;> decide
  | serving | check | quit | wakeup | join | gone =>
      rw [phase] at starting
      cases starting

theorem create_remaining (numThreads : Nat) (callback : Bool) :
    (create numThreads callback).remaining = 15 * numThreads + 2 := by
  have each (i : Nat) : ((create numThreads callback).threads i).phase.remaining = 9 := rfl
  rw [remaining, Finset.sum_const_nat fun i _ => each i, Finset.card_range]
  show 6 * numThreads + 2 + numThreads * 9 = _
  omega

/-- `start` never deadlocks, and returns after a bounded number of steps of all threads unless
spurious wakeups keep it from that. -/
theorem start_returns (numThreads : Nat) (callback : Bool) (events : List LoopPoolEvent)
    (noQuit : Guarded step NoQuit (create numThreads callback) events)
    (reached : run step (create numThreads callback) events = .ok s)
    (starting : s.phase.returned = false) :
    (s.Enabled .main ∨ ∃ i, s.Enabled (.thread i)) ∧
      events.length ≤ 15 * numThreads + 2 + 3 * events.count .spurious := by
  refine ⟨start_enabled (run_sound noQuit reached) starting, ?_⟩
  have bounded := (run_length_le Sound (fun s => s.phase.returned = false) remaining .spurious 3
    (fun _ _ _ sound noQuit taken => step_keeps_sound sound noQuit taken)
    (fun _ _ _ sound noQuit taken starting => step_progress sound noQuit taken starting)
    (create_sound numThreads callback) noQuit reached starting).2
  rw [create_remaining] at bounded
  omega

/-- The end of the first wait, by a spurious wakeup. -/
theorem start_returns_one :
    ∃ s, run step (create 1 false) [.main, .main, .thread 0, .thread 0, .main, .main, .main,
      .spurious] = .ok s ∧ (s.Enabled .main ∨ ∃ i, s.Enabled (.thread i)) :=
  ⟨_, rfl, (start_returns 1 false [.main, .main, .thread 0, .thread 0, .main, .main, .main,
    .spurious] (by decide) rfl rfl).1⟩

/-- The main thread has called `quit()` on a loop that missed it: `loop()` sets `quit_` to false. -/
def Missed (i : Nat) (s : LoopThreadPool) : Prop :=
  (s.phase = .wakeup i i ∨ s.phase = .join i) ∧
    ((s.threads i).phase = .unlock ∨ (s.threads i).phase = .loop ∨
      (s.threads i).phase = .looping ∧ (s.threads i).quit = false)

theorem step_missed {event : LoopPoolEvent} (sound : s.Sound) (noQuit : NoQuit s event)
    (missed : s.Missed i) (taken : s.step event = .ok after) : after.Missed i := by
  obtain ⟨phase, stuck⟩ := missed
  cases event with
  | main =>
      rcases phase with waking | joining
      · rw [step, stepMain, waking] at taken
        obtain ⟨woken, woke, rest⟩ := (bind_ok_iff _ _ _).mp taken
        obtain ⟨-, same⟩ := guard_ok woke
        cases same
        cases rest
        exact ⟨.inr rfl, stuck⟩
      · rw [step, stepMain, joining] at taken
        obtain ⟨ended, -⟩ := guard_ok taken
        rw [ended] at stuck
        simp at stuck
  | thread j =>
      obtain ⟨at', quit, allowed, same, steps⟩ := stepThread_at sound j
      rw [step, steps] at taken
      obtain ⟨ready, taken⟩ := guard_ok taken
      cases taken
      refine ⟨?_, ?_⟩
      · rcases phase with waking | joining
        · simp [setThread, setPhase, waking]
        · simp [setThread, setPhase, joining]
      · by_cases here : i = j
        · subst here
          rw [same] at stuck
          show ((Function.update s.threads i _ i).phase = _ ∨ _)
          simp only [setThread, setPhase, Function.update_self]
          revert stuck ready
          cases at' <;> cases quit <;>
            simp [LoopThread.at, ThreadPhase.next, ThreadPhase.quitAfter, ThreadPhase.ready]
        · simp only [setThread, setPhase, Function.update_of_ne here]
          exact stuck
  | spurious =>
      rcases phase with waking | joining
      · rw [step, waking] at taken
        cases taken
      · rw [step, joining] at taken
        cases taken
  | quit => exact noQuit.elim
  | wakeup j =>
      simp only [step, sound.quiet, List.not_mem_nil, if_false] at taken
      cases taken

/-- A thread that has seen `quit_`, or will, goes on. -/
theorem ending_step (sound : s.Sound) (joining : s.phase = .join i)
    (started : 9 ≤ (s.threads i).phase.rank) (unfinished : (s.threads i).phase.rank < 14)
    (told : (s.threads i).phase.rank = 9 → (s.threads i).quit = true) :
    ∃ after, s.step (.thread i) = .ok after ∧ after.phase = .join i ∧
      (after.threads i).phase.rank = (s.threads i).phase.rank + 1 := by
  obtain ⟨at', quit, allowed, same, steps⟩ := stepThread_at sound i
  have here : s.phase.turn s.numThreads i = .join := by rw [joining, turn, around_self]
  rw [here] at steps
  rw [same] at started unfinished told ⊢
  simp only [LoopThread.at] at started unfinished told
  have ready : at'.ready .join quit = true := by
    revert started unfinished told
    cases at' <;> cases quit <;> decide
  refine ⟨_, steps.trans (if_pos ready), by simp [setThread, setPhase, joining], ?_⟩
  simp only [setThread, setPhase, Function.update_self, LoopThread.at]
  revert started unfinished
  cases at' <;> decide

/-- It ends, and is joined. -/
theorem thread_ends (sound : s.Sound) (joining : s.phase = .join i)
    (started : 9 ≤ (s.threads i).phase.rank)
    (told : (s.threads i).phase.rank = 9 → (s.threads i).quit = true) :
    ∃ later last, Guarded step NoQuit s later ∧ run step s later = .ok last ∧
      last.phase = .check (i + 1) := by
  induction remaining : 14 - (s.threads i).phase.rank generalizing s with
  | zero =>
      have ended : (s.threads i).phase = .finished := by
        revert remaining
        cases (s.threads i).phase <;> decide
      have joined : s.step .main = .ok ((s.setThread i { s.threads i with
          joined := true, destroyed := true }).setPhase (.check (i + 1))) := by
        rw [step, stepMain, joining]
        exact if_pos ended
      exact ⟨[.main], _, (guarded_cons_of_ok joined).mpr ⟨trivial, trivial⟩,
        (run_cons_ok_iff _ _ _ _).mpr ⟨_, joined, rfl⟩, rfl⟩
  | succ n ih =>
      obtain ⟨after, taken, joining', further⟩ :=
        ending_step sound joining started (by omega) told
      have noQuit : NoQuit s (.thread i) := trivial
      have sound' := step_keeps_sound sound noQuit taken
      obtain ⟨later, last, noQuit', reached, past⟩ :=
        ih sound' joining' (by omega) (fun looping => by omega) (by omega)
      exact ⟨.thread i :: later, last, (guarded_cons_of_ok taken).mpr ⟨noQuit, noQuit'⟩,
        (run_cons_ok_iff _ _ _ _).mpr ⟨after, taken, reached⟩, past⟩

/-- The destructor's `quit()` makes the thread end, so that `join()` can return, exactly when the
thread is inside the `while` of `loop()`. -/
theorem join_returns_iff (numThreads : Nat) (callback : Bool) (events : List LoopPoolEvent)
    (noQuit : Guarded step NoQuit (create numThreads callback) events)
    (reached : run step (create numThreads callback) events = .ok s)
    (closing : s.phase = .quit i) (stops : s.step .main = .ok after) :
    (∃ later last, Guarded step NoQuit after later ∧ run step after later = .ok last ∧
      last.phase = .check (i + 1)) ↔ (s.threads i).phase = .looping := by
  have sound := run_sound noQuit reached
  have follows := sound.threads i
  simp only [closing, turn, around_self] at follows
  obtain ⟨found, alive, quits⟩ := follows_quit follows
  have next : after = (s.setThread i { s.threads i with quit := true }).setPhase (.wakeup i i) := by
    rw [step, stepMain, closing] at stops
    simp only [found, quitLoop, alive, if_true] at stops
    cases stops
    simp only [found, alive]
  have waking : after.phase = .wakeup i i := congrArg LoopThreadPool.phase next
  have here : (after.threads i).phase = (s.threads i).phase ∧ (after.threads i).quit = true := by
    rw [next]
    simp [setThread, setPhase]
  have sound' : after.Sound := step_keeps_sound sound (show NoQuit s .main from trivial) stops
  constructor
  · rintro ⟨later, last, noQuit', reached', past⟩
    by_contra early
    have missed : after.Missed i := by
      refine ⟨.inl waking, ?_⟩
      rw [here.1]
      obtain ⟨at', quit, allowed, same⟩ := follows
      rw [same] at early ⊢
      revert allowed early
      cases at' <;> cases quit <;> simp [LoopThread.at, Turn.allows, ThreadPhase.rank]
    have still := run_preserves (fun s => s.Sound ∧ s.Missed i)
      (fun _ _ _ both noQuit taken =>
        ⟨step_keeps_sound both.1 noQuit taken, step_missed both.1 noQuit both.2 taken⟩)
      ⟨sound', missed⟩ noQuit' reached'
    rcases still.2.1 with waking | joining
    · rw [waking] at past
      cases past
    · rw [joining] at past
      cases past
  · intro looping
    have there : (after.threads i).alive = true := by
      rw [next]
      simp only [setThread, setPhase, Function.update_self]
      exact alive
    have woken : after.step .main = .ok (after.setPhase (.join i)) := by
      simp only [step, stepMain, waking, wakeupLoop, there, if_true]
      rfl
    have started : 9 ≤ (after.threads i).phase.rank := by
      rw [here.1, looping]
      decide
    obtain ⟨later, last, noQuit', reached', ends⟩ :=
      thread_ends (step_keeps_sound sound' (show NoQuit after .main from trivial) woken) rfl started
        fun _ => here.2
    exact ⟨.main :: later, last, (guarded_cons_of_ok woken).mpr ⟨trivial, noQuit'⟩,
      (run_cons_ok_iff _ _ _ _).mpr ⟨_, woken, reached'⟩, ends⟩

/-- A pool that is destroyed before its thread is in `loop()`. -/
theorem join_returns_iff_one :
    ∃ s after, run step (create 1 false) (List.replicate 2 .main ++ List.replicate 7 (.thread 0) ++
        List.replicate 6 .main) = .ok s ∧ s.step .main = .ok after ∧
      ((∃ later last, Guarded step NoQuit after later ∧ run step after later = .ok last ∧
        last.phase = .check 1) ↔ (s.threads 0).phase = .looping) :=
  ⟨_, _, rfl, rfl, join_returns_iff 1 false (List.replicate 2 .main ++
    List.replicate 7 (.thread 0) ++ List.replicate 6 .main) (by decide) rfl rfl rfl⟩

end LoopThreadPool

end KamaWebserver
