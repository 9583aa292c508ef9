import KamaWebserver.LoopThreads

set_option autoImplicit false

namespace KamaWebserver

open Outcome Transition

/-- What the main thread is doing with one thread of the pool. In `join` it has stored `quit_`. -/
inductive Turn
  | before
  | semWait
  | lock
  | test
  | wait
  | up
  | quit
  | join
  | after
  deriving DecidableEq

namespace LoopPoolPhase

/-- The turn of thread `i` while the main thread is at thread `k`. -/
def around (i k : Nat) (earlier here later : Turn) : Turn :=
  if i < k then earlier else if i = k then here else later

def turn (numThreads i : Nat) : LoopPoolPhase → Turn
  | .idle => .before
  | .create k => around i k .up .before .before
  | .semWait k => around i k .up .semWait .before
  | .lock k => around i k .up .lock .before
  | .test k => around i k .up .test .before
  | .wait k => around i k .up .wait .before
  | .serving => around i numThreads .up .before .before
  | .check k => if i < k then .after else around i numThreads .up .before .before
  | .quit k => around i k .after .quit (around i numThreads .up .before .before)
  | .wakeup k _ | .join k => around i k .after .join (around i numThreads .up .before .before)
  | .gone => around i numThreads .after .before .before

/-- How many calls of `startLoop` have returned. -/
def begun (numThreads : Nat) : LoopPoolPhase → Nat
  | .idle => 0
  | .create k | .semWait k | .lock k | .test k | .wait k => k
  | .serving | .check _ | .quit _ | .wakeup _ _ | .join _ | .gone => numThreads

/-- The number of the thread at hand is one of the pool's, and the loop is its own. -/
def Bounded (numThreads : Nat) : LoopPoolPhase → Prop
  | .create k | .check k => k ≤ numThreads
  | .semWait k | .lock k | .test k | .wait k | .quit k | .join k => k < numThreads
  | .wakeup k loop => k < numThreads ∧ loop = k
  | .idle | .serving | .gone => True

/-- `start` has returned. -/
def returned : LoopPoolPhase → Bool
  | .serving | .check _ | .quit _ | .wakeup _ _ | .join _ | .gone => true
  | _ => false

/-- The destructor has begun. -/
def closing : LoopPoolPhase → Bool
  | .check _ | .quit _ | .wakeup _ _ | .join _ | .gone => true
  | _ => false

end LoopPoolPhase

/-- Where a thread can be at each turn, and what its `quit_` is then. -/
def Turn.allows (turn : Turn) (phase : ThreadPhase) (quit : Bool) : Bool :=
  match turn with
  | .before => phase = .unborn && !quit
  | .semWait => 1 ≤ phase.rank && phase.rank ≤ 9 && !quit
  | .lock => 3 ≤ phase.rank && phase.rank ≤ 9 && !quit
  | .test => 3 ≤ phase.rank && phase.rank ≤ 9 && phase ≠ .publish && phase ≠ .unlock && !quit
  | .wait => 3 ≤ phase.rank && phase.rank ≤ 6 && !quit
  | .up | .quit => 7 ≤ phase.rank && phase.rank ≤ 9 && !quit
  | .join => 7 ≤ phase.rank && (quit || phase.rank ≤ 9)
  | .after => phase = .finished

namespace ThreadPhase

def next : ThreadPhase → ThreadPhase
  | unborn => unborn
  | tid => post
  | post => construct
  | construct => callback
  | callback => lock
  | lock => publish
  | publish => unlock
  | unlock => loop
  | loop => looping
  | looping => relock
  | relock => clear
  | clear => reunlock
  | reunlock => destruct
  | destruct => finished
  | finished => finished

/-- The thread can take its next step. -/
def ready (phase : ThreadPhase) (turn : Turn) (quit : Bool) : Bool :=
  match phase with
  | unborn | finished => false
  | lock | relock => turn ≠ .test
  | looping => quit
  | _ => true

/-- The constructor of the loop and `loop()` set `quit_` to false. -/
def quitAfter (phase : ThreadPhase) (quit : Bool) : Bool :=
  if phase = construct ∨ phase = loop then false else quit

end ThreadPhase

/-- The turn after a step of the thread: `publish` ends the wait of the main thread. -/
def Turn.notified (turn : Turn) (phase : ThreadPhase) : Turn :=
  if phase = .publish ∧ turn = .wait then .lock else turn

/-- A thread as its turn and its phase determine it. -/
def LoopThread.at (callback : Bool) (i : Nat) (turn : Turn) (phase : ThreadPhase) (quit : Bool) :
    LoopThread where
  phase := phase
  started := turn ≠ .before
  joined := turn = .after
  tid := if 2 ≤ phase.rank then i + 1 else 0
  sem := if turn = .semWait ∧ 3 ≤ phase.rank then 1 else 0
  holder :=
    if turn = .test then some .main
    else if phase ∈ [.publish, .unlock, .clear, .reunlock] then some .child else none
  loop := if 7 ≤ phase.rank ∧ phase.rank ≤ 11 then some i else none
  alive := 4 ≤ phase.rank ∧ phase.rank ≤ 13
  quit := quit
  initialized := if callback ∧ 5 ≤ phase.rank then 1 else 0
  destroyed := turn = .after

/-- A thread follows the main thread's turn. -/
def LoopThread.Follows (callback : Bool) (i : Nat) (turn : Turn) (t : LoopThread) : Prop :=
  ∃ phase quit, turn.allows phase quit = true ∧ t = .at callback i turn phase quit

namespace LoopThreadPool

open LoopPoolPhase

/-- Both sides of each start and stop agree on how far it has come. -/
structure Sound (s : LoopThreadPool) : Prop where
  threads : ∀ i, (s.threads i).Follows s.callback i (s.phase.turn s.numThreads i)
  loops : s.loops = List.range (s.phase.begun s.numThreads)
  bounded : s.phase.Bounded s.numThreads
  base : s.baseInitialized =
    if s.phase.returned ∧ s.numThreads = 0 ∧ s.callback then 1 else 0
  quiet : s.quitting = []

/-- No thread but the main thread's destructor calls `quit()`. -/
def NoQuit (_s : LoopThreadPool) : LoopPoolEvent → Prop
  | .quit _ => False
  | _ => True

instance : (s : LoopThreadPool) → (event : LoopPoolEvent) → Decidable (NoQuit s event)
  | _, .quit _ => instDecidableFalse
  | _, .main | _, .thread _ | _, .spurious | _, .wakeup _ => instDecidableTrue

/-- The main thread is still inside `quit()` on a loop that its thread has destroyed since the
store. -/
def Overtaken (s : LoopThreadPool) : Prop :=
  ∃ i, s.phase = .wakeup i i ∧ (s.threads i).alive = false

/-- A step fails where it cannot go on, or inside that `quit()`. -/
def Faults (s : LoopThreadPool) (event : LoopPoolEvent) (fault : LoopPoolFault) : Prop :=
  fault = .blocked ∨ fault = .dangling ∧ event = .main ∧ s.Overtaken

variable {s after : LoopThreadPool} {i : Nat}

theorem around_of_ne {i k : Nat} (different : i ≠ k) (earlier here other later : Turn) :
    around i k earlier here later = around i k earlier other later := by
  simp [around, different]

@[simp] theorem around_self (k : Nat) (earlier here later : Turn) :
    around k k earlier here later = here := by
  simp [around]

theorem create_sound (numThreads : Nat) (callback : Bool) :
    (create numThreads callback).Sound :=
  ⟨fun _ => ⟨.unborn, false, rfl, by cases callback <;> rfl⟩, rfl, trivial,
    by simp [create, returned], rfl⟩

/-- A step of a thread goes to the next phase, or the thread cannot go on. -/
theorem advance_at {callback : Bool} {turn : Turn} {phase : ThreadPhase} {quit : Bool}
    (allowed : turn.allows phase quit = true) :
    advance callback i (.at callback i turn phase quit) =
      if phase.ready turn quit then
        .ok (.at callback i (turn.notified phase) phase.next (phase.quitAfter quit))
      else .error .blocked := by
  cases phase with
  | unborn | finished => rfl
  | tid | post | construct | callback | lock | publish | unlock | loop | relock | clear | reunlock
  | destruct => cases callback <;> cases turn <;> first | rfl | cases allowed
  | looping => cases callback <;> cases quit <;> cases turn <;> rfl

/-- The next phase is allowed at the turn that follows. -/
theorem allows_next {turn : Turn} {phase : ThreadPhase} {quit : Bool}
    (allowed : turn.allows phase quit = true) (ready : phase.ready turn quit = true) :
    (turn.notified phase).allows phase.next (phase.quitAfter quit) = true := by
  revert allowed ready
  cases turn <;> cases phase <;> cases quit <;> decide

/-- A step of the two sides of one start or stop: a thread and its turn change. -/
theorem Sound.moves (sound : s.Sound) {phase : LoopPoolPhase} {next : LoopThread}
    (follows : next.Follows s.callback i (phase.turn s.numThreads i))
    (others : ∀ j ≠ i, phase.turn s.numThreads j = s.phase.turn s.numThreads j)
    (begun : phase.begun s.numThreads = s.phase.begun s.numThreads)
    (bounded : phase.Bounded s.numThreads) (returned : phase.returned = s.phase.returned) :
    ((s.setThread i next).setPhase phase).Sound := by
  refine ⟨fun j => ?_, sound.loops.trans (congrArg List.range begun.symm), bounded, ?_,
    sound.quiet⟩
  · show (Function.update s.threads i next j).Follows s.callback j (phase.turn s.numThreads j)
    by_cases same : j = i
    · subst same
      rw [Function.update_self]
      exact follows
    · rw [Function.update_of_ne same, others j same]
      exact sound.threads j
  · simp only [LoopThreadPool.setPhase, setThread, returned]
    exact sound.base

/-- The main thread goes on without touching a thread. -/
theorem Sound.setPhase (sound : s.Sound) {phase : LoopPoolPhase} (i : Nat)
    (here : (s.threads i).Follows s.callback i (phase.turn s.numThreads i))
    (others : ∀ j ≠ i, phase.turn s.numThreads j = s.phase.turn s.numThreads j)
    (begun : phase.begun s.numThreads = s.phase.begun s.numThreads)
    (bounded : phase.Bounded s.numThreads) (returned : phase.returned = s.phase.returned) :
    (s.setPhase phase).Sound := by
  have moved := sound.moves here others begun bounded returned
  rwa [setThread, Function.update_eq_self] at moved

theorem turn_eq_wait (phase : LoopPoolPhase) (numThreads : Nat) :
    phase.turn numThreads i = .wait ↔ phase = .wait i := by
  cases phase <;> simp [turn, around] <;> grind

/-- A thread never uses an object that is gone. -/
theorem stepThread_at (sound : s.Sound) (i : Nat) :
    ∃ phase quit, (s.phase.turn s.numThreads i).allows phase quit = true ∧
      s.threads i = .at s.callback i (s.phase.turn s.numThreads i) phase quit ∧
      s.stepThread i =
        if phase.ready (s.phase.turn s.numThreads i) quit then
          .ok ((s.setThread i (.at s.callback i ((s.phase.turn s.numThreads i).notified phase)
            phase.next (phase.quitAfter quit))).setPhase
              (if phase = .publish ∧ s.phase = .wait i then .lock i else s.phase))
        else .error .blocked := by
  obtain ⟨phase, quit, allowed, same⟩ := sound.threads i
  refine ⟨phase, quit, allowed, same, ?_⟩
  have live : ¬ ((s.threads i).destroyed ∧ usesMembers (s.threads i).phase) := by
    rw [same]
    revert allowed
    generalize s.phase.turn s.numThreads i = turn
    cases turn <;> cases phase <;> simp [LoopThread.at, usesMembers, Turn.allows]
  unfold stepThread
  simp only [if_neg live]
  rw [same, advance_at allowed]
  by_cases ready : phase.ready (s.phase.turn s.numThreads i) quit
  · rw [if_pos ready, if_pos ready]
    change Except.ok (if phase = .publish then (s.setThread i _).wake i else s.setThread i _) = _
    congr 1
    by_cases published : phase = .publish
    · by_cases waits : s.phase = .wait i
      · rw [if_pos published, if_pos ⟨published, waits⟩]
        exact if_pos waits
      · rw [if_pos published, if_neg fun both => waits both.2]
        exact if_neg waits
    · rw [if_neg published, if_neg fun both => published both.1]
      rfl
  · rw [if_neg ready, if_neg ready]
    rfl

theorem stepThread_sound (sound : s.Sound) (i : Nat) :
    Spec (· = .blocked) Sound (s.stepThread i) := by
  obtain ⟨phase, quit, allowed, -, taken⟩ := stepThread_at sound i
  rw [taken]
  by_cases ready : phase.ready (s.phase.turn s.numThreads i) quit
  · rw [if_pos ready]
    have allowed' := allows_next allowed ready
    by_cases wakes : phase = .publish ∧ s.phase = .wait i
    · rw [if_pos wakes]
      obtain ⟨published, waits⟩ := wakes
      have here : (s.phase.turn s.numThreads i).notified phase = .lock := by
        simp [Turn.notified, published, waits, turn]
      refine sound.moves ?_ (fun j different => ?_) (by rw [waits]; rfl) ?_ (by rw [waits]; rfl)
      · rw [turn, around_self, ← here]
        exact ⟨_, _, allowed', rfl⟩
      · rw [waits]
        exact around_of_ne different ..
      · have bounded := sound.bounded
        rw [waits] at bounded
        exact bounded
    · rw [if_neg wakes]
      have stays : (s.phase.turn s.numThreads i).notified phase = s.phase.turn s.numThreads i :=
        if_neg fun both => wakes ⟨both.1, (turn_eq_wait _ _).mp both.2⟩
      refine sound.moves ?_ (fun _ _ => rfl) rfl sound.bounded rfl
      rw [stays] at allowed' ⊢
      exact ⟨_, _, allowed', rfl⟩
  · rw [if_neg ready]
    exact rfl

section Handshake

variable {callback : Bool} {t : LoopThread}

/-- The semaphore has been posted. -/
theorem follows_posted (follows : t.Follows callback i .semWait) (posted : 0 < t.sem) :
    { t with sem := t.sem - 1 }.Follows callback i .lock := by
  obtain ⟨phase, quit, allowed, rfl⟩ := follows
  have past : 3 ≤ phase.rank := by
    by_contra early
    simp [LoopThread.at, early] at posted
  refine ⟨phase, quit, ?_, by simp [LoopThread.at, past]⟩
  simp only [Turn.allows, Bool.and_eq_true, decide_eq_true_eq] at allowed ⊢
  exact ⟨⟨past, allowed.1.2⟩, allowed.2⟩

/-- The mutex is free. -/
theorem follows_locked (follows : t.Follows callback i .lock) (free : t.holder = none) :
    { t with holder := some .main }.Follows callback i .test := by
  obtain ⟨phase, quit, allowed, rfl⟩ := follows
  refine ⟨phase, quit, ?_, by simp [LoopThread.at]⟩
  have notHeld : phase ≠ .publish ∧ phase ≠ .unlock := by
    constructor
    · rintro rfl
      cases free
    · rintro rfl
      cases free
  revert allowed notHeld
  cases phase <;> cases quit <;> decide

/-- The predicate of `cond_.wait` holds, and `loop_` points to the loop of the thread itself. -/
theorem follows_published (follows : t.Follows callback i .test) {loop : Nat}
    (published : t.loop = some loop) :
    loop = i ∧ { t with holder := none }.Follows callback i .up := by
  obtain ⟨phase, quit, allowed, rfl⟩ := follows
  have past : 7 ≤ phase.rank ∧ phase.rank ≤ 11 := by
    by_contra outside
    simp [LoopThread.at, outside] at published
  have self : loop = i := by simpa [LoopThread.at, past, eq_comm] using published
  have here : phase = .loop ∨ phase = .looping := by
    revert allowed past
    cases phase <;> cases quit <;> decide
  refine ⟨self, phase, quit, ?_, ?_⟩
  · revert allowed past
    cases phase <;> cases quit <;> decide
  · rcases here with rfl | rfl <;> cases callback <;> rfl

/-- It does not, so `publish` is still to come. -/
theorem follows_unpublished (follows : t.Follows callback i .test) (unpublished : t.loop = none) :
    { t with holder := none }.Follows callback i .wait := by
  obtain ⟨phase, quit, allowed, rfl⟩ := follows
  have early : ¬ (7 ≤ phase.rank ∧ phase.rank ≤ 11) := by
    intro past
    simp [LoopThread.at, past] at unpublished
  have here : phase = .construct ∨ phase = .callback ∨ phase = .lock := by
    revert allowed early
    cases phase <;> cases quit <;> decide
  refine ⟨phase, quit, ?_, ?_⟩
  · revert allowed early
    cases phase <;> cases quit <;> decide
  · rcases here with rfl | rfl | rfl <;> cases callback <;> rfl

/-- Whether it has been notified or not, the main thread takes the mutex again. -/
theorem follows_awake (follows : t.Follows callback i .wait) : t.Follows callback i .lock := by
  obtain ⟨phase, quit, allowed, rfl⟩ := follows
  refine ⟨phase, quit, ?_, by simp [LoopThread.at]⟩
  revert allowed
  cases phase <;> cases quit <;> decide

/-- A loop that is up has been published, and is there to be told to quit. -/
theorem follows_up (follows : t.Follows callback i .up) :
    t.loop = some i ∧ t.Follows callback i .quit := by
  obtain ⟨phase, quit, allowed, rfl⟩ := follows
  have here : phase = .unlock ∨ phase = .loop ∨ phase = .looping := by
    revert allowed
    cases phase <;> cases quit <;> decide
  refine ⟨?_, phase, quit, allowed, by simp [LoopThread.at]⟩
  rcases here with rfl | rfl | rfl <;> rfl

theorem follows_quit (follows : t.Follows callback i .quit) :
    t.loop = some i ∧ t.alive = true ∧ { t with quit := true }.Follows callback i .join := by
  obtain ⟨phase, quit, allowed, rfl⟩ := follows
  have here : phase = .unlock ∨ phase = .loop ∨ phase = .looping := by
    revert allowed
    cases phase <;> cases quit <;> decide
  refine ⟨?_, ?_, phase, true, ?_, by simp [LoopThread.at]⟩
  · rcases here with rfl | rfl | rfl <;> rfl
  · rcases here with rfl | rfl | rfl <;> rfl
  · rcases here with rfl | rfl | rfl <;> rfl

/-- The object goes once its thread has ended. -/
theorem follows_finished (follows : t.Follows callback i .join) (ended : t.phase = .finished) :
    { t with joined := true, destroyed := true }.Follows callback i .after := by
  obtain ⟨phase, quit, allowed, rfl⟩ := follows
  have here : phase = .finished := ended
  subst here
  exact ⟨.finished, quit, rfl, by cases callback <;> rfl⟩

end Handshake

/-- `startLoop` returns and the pool keeps the loop. -/
theorem Sound.started (sound : s.Sound) (phase : s.phase = .test i) (bounded : i < s.numThreads)
    (up : { s.threads i with holder := none }.Follows s.callback i .up) :
    Sound { s.setThread i { s.threads i with holder := none } with
      loops := s.loops ++ [i], phase := .create (i + 1) } := by
  have loops := sound.loops
  have base := sound.base
  rw [phase] at loops base
  refine ⟨fun j => ?_, ?_, bounded, base, sound.quiet⟩
  · show (Function.update s.threads i _ j).Follows s.callback j
      (around j (i + 1) .up .before .before)
    by_cases same : j = i
    · subst same
      rw [Function.update_self, around, if_pos (Nat.lt_succ_self j)]
      exact up
    · rw [Function.update_of_ne same]
      have follows := sound.threads j
      rw [phase] at follows
      have still : around j (i + 1) .up .before .before = around j i .up .test .before := by
        grind [around]
      rw [still]
      exact follows
  · show s.loops ++ [i] = List.range (i + 1)
    rw [loops, List.range_succ]
    rfl

/-- The thread the destructor looks at next is still up. -/
theorem check_turn {numThreads : Nat} (more : i < numThreads) :
    (LoopPoolPhase.check i).turn numThreads i = .up := by
  simp [turn, around, more]

/-- The main thread goes through no null pointer, and through a dangling one only at the end of
`quit()`. -/
theorem stepMain_sound (sound : s.Sound) : Spec (s.Faults .main) Sound s.stepMain := by
  have bounded := sound.bounded
  unfold stepMain
  cases phase : s.phase with
  | idle =>
      have before : ∀ j, around j 0 .up .before .before = Turn.before := by simp [around]
      refine sound.setPhase 0 ?_ (fun j _ => ?_) (by rw [phase]; rfl) (Nat.zero_le _)
        (by rw [phase]; rfl)
      · have here := sound.threads 0
        rw [phase] at here
        exact here
      · simp only [turn, before, phase]
  | create i =>
      rw [phase] at bounded
      by_cases more : i < s.numThreads
      · simp only [if_pos more]
        refine sound.moves ?_ (fun j different => ?_) (by rw [phase]; rfl) more (by rw [phase]; rfl)
        · simp only [turn, around_self]
          exact ⟨.tid, false, rfl, by cases s.callback <;> rfl⟩
        · rw [phase]
          exact around_of_ne different ..
      · have all : i = s.numThreads := Nat.le_antisymm bounded (Nat.le_of_not_lt more)
        subst all
        have threads := sound.threads
        have loops := sound.loops
        have base := sound.base
        rw [phase] at threads loops base
        simp only [if_neg more]
        refine ⟨threads, loops, trivial, ?_, sound.quiet⟩
        have none : s.baseInitialized = 0 := by simpa [returned] using base
        simp [returned, none]
  | semWait i =>
      rw [phase] at bounded
      have follows := sound.threads i
      simp only [phase, turn, around_self] at follows
      by_cases posted : 0 < (s.threads i).sem
      · simp only [if_pos posted]
        refine sound.moves ?_ (fun j different => ?_) (by rw [phase]; rfl) bounded
          (by rw [phase]; rfl)
        · rw [turn, around_self]
          exact follows_posted follows posted
        · rw [phase]
          exact around_of_ne different ..
      · simp only [if_neg posted]
        exact .inl rfl
  | lock i =>
      rw [phase] at bounded
      have follows := sound.threads i
      simp only [phase, turn, around_self] at follows
      by_cases free : (s.threads i).holder = none
      · simp only [if_pos free]
        refine sound.moves ?_ (fun j different => ?_) (by rw [phase]; rfl) bounded
          (by rw [phase]; rfl)
        · rw [turn, around_self]
          exact follows_locked follows free
        · rw [phase]
          exact around_of_ne different ..
      · simp only [if_neg free]
        exact .inl rfl
  | test i =>
      rw [phase] at bounded
      have follows := sound.threads i
      simp only [phase, turn, around_self] at follows
      cases found : (s.threads i).loop with
      | some loop =>
          obtain ⟨self, up⟩ := follows_published follows found
          subst self
          have started := sound.started phase bounded up
          simp only [found] at started ⊢
          exact started
      | none =>
          simp only [found]
          refine sound.moves ?_ (fun j different => ?_) (by rw [phase]; rfl) bounded
            (by rw [phase]; rfl)
          · rw [turn, around_self]
            simpa only [found] using follows_unpublished follows found
          · rw [phase]
            exact around_of_ne different ..
  | wait i => exact .inl rfl
  | serving =>
      have same : ∀ j, (LoopPoolPhase.check 0).turn s.numThreads j =
          s.phase.turn s.numThreads j := by
        intro j
        rw [phase]
        simp only [turn, if_neg (Nat.not_lt_zero j)]
      refine sound.setPhase 0 ?_ (fun j _ => same j) (by rw [phase]; rfl) (Nat.zero_le _)
        (by rw [phase]; rfl)
      rw [same 0]
      exact sound.threads 0
  | check i =>
      rw [phase] at bounded
      by_cases more : i < s.numThreads
      · simp only [if_pos more]
        have follows := sound.threads i
        rw [phase, check_turn more] at follows
        obtain ⟨found, quits⟩ := follows_up follows
        simp only [found]
        refine sound.setPhase i ?_ (fun j different => ?_) (by rw [phase]; rfl) more
          (by rw [phase]; rfl)
        · rw [turn, around_self]
          exact quits
        · rw [phase]
          simp only [turn, around, if_neg different]
      · have all : i = s.numThreads := Nat.le_antisymm bounded (Nat.le_of_not_lt more)
        subst all
        simp only [if_neg more]
        have same : ∀ j, LoopPoolPhase.gone.turn s.numThreads j =
            s.phase.turn s.numThreads j := by
          intro j
          rw [phase]
          simp only [turn, around]
          split
          · rfl
          · simp
        refine sound.setPhase 0 ?_ (fun j _ => same j) (by rw [phase]; rfl) trivial
          (by rw [phase]; rfl)
        rw [same 0]
        exact sound.threads 0
  | quit i =>
      rw [phase] at bounded
      have follows := sound.threads i
      simp only [phase, turn, around_self] at follows
      obtain ⟨found, alive, quits⟩ := follows_quit follows
      simp only [found, quitLoop, alive, if_true]
      refine sound.moves ?_ (fun j different => ?_) (by rw [phase]; rfl) ⟨bounded, rfl⟩
        (by rw [phase]; rfl)
      · rw [turn, around_self]
        simpa only [found, alive] using quits
      · rw [phase]
        exact around_of_ne different ..
  | wakeup i loop =>
      rw [phase] at bounded
      obtain ⟨inside, rfl⟩ := bounded
      simp only [wakeupLoop]
      by_cases alive : (s.threads loop).alive
      · simp only [if_pos alive]
        have follows := sound.threads loop
        rw [phase] at follows
        exact sound.setPhase loop follows (fun j _ => by rw [phase]; rfl) (by rw [phase]; rfl)
          inside (by rw [phase]; rfl)
      · simp only [if_neg alive]
        exact .inr ⟨rfl, rfl, loop, phase, Bool.eq_false_iff.mpr alive⟩
  | join i =>
      rw [phase] at bounded
      have follows := sound.threads i
      simp only [phase, turn, around_self] at follows
      by_cases ended : (s.threads i).phase = .finished
      · simp only [if_pos ended]
        refine sound.moves ?_ (fun j different => ?_) (by rw [phase]; rfl) bounded
          (by rw [phase]; rfl)
        · simp only [turn, if_pos (Nat.lt_succ_self i)]
          exact follows_finished follows ended
        · rw [phase]
          simp only [turn, around, if_neg different]
          have closer : j < i + 1 ↔ j < i := by omega
          simp only [closer]
      · simp only [if_neg ended]
        exact .inl rfl
  | gone => exact .inl rfl

theorem step_sound (sound : s.Sound) {event : LoopPoolEvent} (noQuit : NoQuit s event) :
    Spec (s.Faults event) Sound (s.step event) := by
  cases event with
  | main => exact stepMain_sound sound
  | thread i => exact (stepThread_sound sound i).allow fun _ blocked => .inl blocked
  | spurious =>
      simp only [step]
      cases phase : s.phase with
      | wait i =>
          have follows := sound.threads i
          have bounded := sound.bounded
          simp only [phase, turn, around_self] at follows bounded
          refine sound.setPhase i ?_ (fun j different => ?_) (by rw [phase]; rfl) bounded
            (by rw [phase]; rfl)
          · rw [turn, around_self]
            exact follows_awake follows
          · rw [phase]
            exact around_of_ne different ..
      | idle | create | semWait | lock | test | serving | check | quit | wakeup | join | gone =>
          exact .inl rfl
  | quit i => exact noQuit.elim
  | wakeup i =>
      simp only [step, sound.quiet, List.not_mem_nil, if_false]
      exact .inl rfl

theorem step_keeps_sound {event : LoopPoolEvent} (sound : s.Sound) (noQuit : NoQuit s event)
    (taken : s.step event = .ok after) : after.Sound :=
  (step_sound sound noQuit).of_ok taken

theorem run_sound {numThreads : Nat} {callback : Bool} {events : List LoopPoolEvent}
    (noQuit : Guarded step NoQuit (create numThreads callback) events)
    (reached : run step (create numThreads callback) events = .ok s) : s.Sound :=
  run_preserves Sound (fun _ _ _ sound noQuit taken => step_keeps_sound sound noQuit taken)
    (create_sound numThreads callback) noQuit reached

section Fixed

variable (s)

/-- Neither the number of threads nor the callback changes. -/
def Fixed (after : LoopThreadPool) : Prop :=
  after.numThreads = s.numThreads ∧ after.callback = s.callback

theorem quitLoop_fixed (i : Nat) : Spec (fun _ => True) s.Fixed (s.quitLoop i) := by
  unfold quitLoop
  split
  · exact ⟨rfl, rfl⟩
  · trivial

theorem wakeupLoop_fixed (i : Nat) : Spec (fun _ => True) s.Fixed (s.wakeupLoop i) := by
  unfold wakeupLoop
  split
  · exact ⟨rfl, rfl⟩
  · trivial

theorem stepMain_fixed : Spec (fun _ => True) s.Fixed s.stepMain := by
  unfold stepMain
  cases s.phase with
  | idle | serving => exact ⟨rfl, rfl⟩
  | semWait | lock | join =>
      dsimp only
      split
      · exact ⟨rfl, rfl⟩
      · trivial
  | create | test =>
      dsimp only
      split <;> exact ⟨rfl, rfl⟩
  | check =>
      dsimp only
      split
      · split <;> exact ⟨rfl, rfl⟩
      · exact ⟨rfl, rfl⟩
  | quit =>
      dsimp only
      split
      · exact (s.quitLoop_fixed _).bind fun _ fixed => fixed
      · trivial
  | wakeup => exact (s.wakeupLoop_fixed _).bind fun _ fixed => fixed
  | wait | gone => trivial

theorem step_fixed (event : LoopPoolEvent) : Spec (fun _ => True) s.Fixed (s.step event) := by
  cases event with
  | main => exact s.stepMain_fixed
  | thread i =>
      simp only [step, stepThread]
      split
      · trivial
      · cases advance s.callback i (s.threads i) with
        | ok next =>
            change s.Fixed (if _ then (s.setThread i next).wake i else s.setThread i next)
            split
            · unfold wake
              split <;> exact ⟨rfl, rfl⟩
            · exact ⟨rfl, rfl⟩
        | error => trivial
  | spurious =>
      simp only [step]
      split
      · exact ⟨rfl, rfl⟩
      · trivial
  | quit i =>
      simp only [step]
      split
      · exact (s.quitLoop_fixed i).bind fun _ fixed => fixed
      · trivial
  | wakeup i =>
      simp only [step]
      split
      · exact (s.wakeupLoop_fixed i).bind fun _ fixed => fixed
      · trivial

end Fixed

theorem run_fixed {numThreads : Nat} {callback : Bool} {events : List LoopPoolEvent}
    (reached : run step (create numThreads callback) events = .ok s) :
    s.numThreads = numThreads ∧ s.callback = callback :=
  Reachable.preserves (fun s => s.numThreads = numThreads ∧ s.callback = callback)
    (fun state event _ fixed taken =>
      have same := (state.step_fixed event).of_ok taken
      ⟨same.1.trans fixed.1, same.2.trans fixed.2⟩)
    ⟨rfl, rfl⟩ ⟨events, reached⟩

section Outcomes

variable {callback : Bool} {turn : Turn} {t : LoopThread}

/-- The callback runs at most once on a loop. -/
theorem follows_initialized_le (follows : t.Follows callback i turn) : t.initialized ≤ 1 := by
  obtain ⟨phase, quit, -, rfl⟩ := follows
  simp only [LoopThread.at]
  split
  · exact Nat.le_refl 1
  · exact Nat.zero_le 1

/-- From `.up` on the thread is known and its loop set up. -/
theorem follows_begun (follows : t.Follows callback i turn)
    (begun : turn ∈ [.up, .quit, .join, .after]) :
    t.tid = i + 1 ∧ t.initialized = if callback then 1 else 0 := by
  obtain ⟨phase, quit, allowed, rfl⟩ := follows
  have past : 7 ≤ phase.rank := by
    revert allowed begun
    cases turn <;> cases phase <;> cases quit <;> decide
  constructor
  · exact if_pos (by omega)
  · simp only [LoopThread.at]
    exact if_congr (and_iff_left (by omega)) rfl rfl

theorem follows_serving (follows : t.Follows callback i .up) :
    t.loop = some i ∧ t.alive = true ∧ t.quit = false := by
  obtain ⟨phase, quit, allowed, rfl⟩ := follows
  revert allowed
  cases phase <;> cases quit <;> first | exact fun _ => ⟨rfl, rfl, rfl⟩ | exact fun no => nomatch no

theorem follows_destroyed (follows : t.Follows callback i turn) (gone : t.destroyed = true) :
    t.phase = .finished ∧ t.joined = true := by
  obtain ⟨phase, quit, allowed, rfl⟩ := follows
  have here : turn = .after := of_decide_eq_true gone
  subst here
  exact ⟨of_decide_eq_true allowed, rfl⟩

end Outcomes

/-- The threads the pool has the loops of are those whose `startLoop` has returned. -/
theorem turn_of_mem_range {numThreads : Nat} {phase : LoopPoolPhase}
    (bounded : phase.Bounded numThreads) (inside : i < phase.begun numThreads) :
    phase.turn numThreads i ∈ [.up, .quit, .join, .after] := by
  cases phase <;> simp only [begun, turn, around, Bounded] at * <;> grind

/-- Before the destructor they are all up. -/
theorem turn_of_open {numThreads : Nat} {phase : LoopPoolPhase} (bounded : phase.Bounded numThreads)
    (inside : i < phase.begun numThreads) (running : phase.closing = false) :
    phase.turn numThreads i = .up := by
  cases phase <;> simp only [begun, turn, around, Bounded, closing] at * <;> grind

theorem begun_le {numThreads : Nat} {phase : LoopPoolPhase} (bounded : phase.Bounded numThreads) :
    phase.begun numThreads ≤ numThreads := by
  cases phase <;> simp only [begun, Bounded] at * <;> omega

/-- The pool keeps the loops of the threads it started, in their order, each set up once by the
callback and running until the destructor; without threads the callback sets up the base loop. -/
theorem start_sets_up (numThreads : Nat) (callback : Bool) (events : List LoopPoolEvent)
    (noQuit : Guarded step NoQuit (create numThreads callback) events)
    (reached : run step (create numThreads callback) events = .ok s) :
    (∃ started ≤ numThreads, s.loops = List.range started ∧
      (s.phase.returned = true → started = numThreads)) ∧
    (∀ i, (s.threads i).initialized ≤ 1) ∧
    (∀ i ∈ s.loops, (s.threads i).tid = i + 1 ∧
      (s.threads i).initialized = (if callback then 1 else 0) ∧
      (s.phase.closing = false →
        (s.threads i).loop = some i ∧ (s.threads i).alive = true ∧ (s.threads i).quit = false)) ∧
    s.baseInitialized =
      (if s.phase.returned = true ∧ numThreads = 0 ∧ callback = true then 1 else 0) := by
  have sound := run_sound noQuit reached
  obtain ⟨rfl, rfl⟩ := run_fixed reached
  refine ⟨⟨s.phase.begun s.numThreads, begun_le sound.bounded, sound.loops, fun returned => ?_⟩,
    fun i => follows_initialized_le (sound.threads i), fun i held => ?_, sound.base⟩
  · revert returned
    cases s.phase <;> first | exact fun _ => rfl | exact fun no => nomatch no
  · rw [sound.loops, List.mem_range] at held
    obtain ⟨tid, initialized⟩ :=
      follows_begun (sound.threads i) (turn_of_mem_range sound.bounded held)
    refine ⟨tid, initialized, fun running => ?_⟩
    have follows := sound.threads i
    rw [turn_of_open sound.bounded held running] at follows
    exact follows_serving follows

/-- One thread and its callback, started up and serving. -/
theorem start_sets_up_one :
    ∃ s, run step (create 1 true) (List.replicate 2 .main ++ List.replicate 8 (.thread 0) ++
      List.replicate 5 .main) = .ok s ∧
      (∃ started ≤ 1, s.loops = List.range started ∧ (s.phase.returned = true → started = 1)) :=
  ⟨_, rfl, (start_sets_up 1 true (List.replicate 2 .main ++ List.replicate 8 (.thread 0) ++
    List.replicate 5 .main) (by decide) rfl).1⟩

/-- An `EventLoopThread` is destroyed after its thread has been joined. -/
def JoinedFirst (s : LoopThreadPool) : Prop :=
  ∀ i, (s.threads i).destroyed = true →
    (s.threads i).phase = .finished ∧ (s.threads i).joined = true

theorem Sound.joinedFirst (sound : s.Sound) : s.JoinedFirst :=
  fun i gone => follows_destroyed (sound.threads i) gone

/-- Unless some other thread calls `quit()` on a loop of the pool, no `EventLoopThread` is destroyed
before its thread has ended and been joined, and no pointer is null or dangles but that of the
destructor's `quit()` in its last step, exactly when the thread has destroyed its loop since the
store. -/
theorem dangles_iff_overtaken (numThreads : Nat) (callback : Bool) (events : List LoopPoolEvent)
    (noQuit : Guarded step NoQuit (create numThreads callback) events)
    (reached : run step (create numThreads callback) events = .ok s) (event : LoopPoolEvent)
    (own : NoQuit s event) :
    s.JoinedFirst ∧ s.step event ≠ .error .nullPointer ∧
      (s.step event = .error .dangling ↔ event = .main ∧ s.Overtaken) := by
  have sound := run_sound noQuit reached
  have spec := step_sound sound own
  refine ⟨sound.joinedFirst, fun failed => ?_, fun failed => ?_, fun overtaken => ?_⟩
  · rcases spec.of_error failed with blocked | ⟨dangling, -⟩
    · cases blocked
    · cases dangling
  · rcases spec.of_error failed with blocked | ⟨-, overtaken⟩
    · cases blocked
    · exact overtaken
  · obtain ⟨rfl, i, phase, gone⟩ := overtaken
    simp only [step, stepMain, phase, wakeupLoop, gone, Bool.false_eq_true, if_false]
    rfl

/-- The thread sees `quit_`, leaves `loop()` and ends before the destructor's `quit()` wakes its
loop. -/
theorem dangles_iff_overtaken_one :
    ∃ s, run step (create 1 false) (List.replicate 2 .main ++ List.replicate 8 (.thread 0) ++
        List.replicate 7 .main ++ List.replicate 5 (.thread 0)) = .ok s ∧
      s.step .main = .error .dangling ∧ s.Overtaken :=
  ⟨_, rfl, rfl, ((dangles_iff_overtaken 1 false (List.replicate 2 .main ++
    List.replicate 8 (.thread 0) ++ List.replicate 7 .main ++ List.replicate 5 (.thread 0))
      (by decide) rfl .main trivial).2.2.mp rfl).2⟩

end LoopThreadPool

end KamaWebserver
