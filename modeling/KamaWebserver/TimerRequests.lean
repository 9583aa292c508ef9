import KamaWebserver.Library.BatchQueue
import KamaWebserver.TimerDelivery

set_option autoImplicit false

namespace KamaWebserver

open Outcome Transition

/-- A `TimerQueue` built for a loop, and the timers whose `addTimerInLoop` waits in the loop's queue
of functors. `EventLoop` itself declares a `timerQueue_` and creates none. -/
structure TimerLoop where
  timerQueue : TimerQueue
  functors : BatchQueue Nat

/-- `request` is `TimerQueue::addTimer` on another thread. The rest is the loop's: its own calls,
and the parts of `doPendingFunctors`; the descriptor can have expired before a functor as before a
call. -/
inductive TimerLoopEvent
  | request (timer : Nat) (object : Timer)
  | call (event : TimerEvent)
  | swapFunctors
  | runFunctor (fired : Bool) (now : Int)
  | endFunctors

namespace TimerLoop

def start : TimerLoop := ⟨.create, .empty⟩

/-- Channels are handled between two batches only. -/
def Enabled (s : TimerLoop) (event : TimerEvent) : Prop :=
  match event.call with
  | .addTimer _ => True
  | .handleRead _ _ _ => s.functors.Between

instance (s : TimerLoop) (event : TimerEvent) : Decidable (s.Enabled event) :=
  match event with
  | ⟨_, .addTimer _⟩ => isTrue trivial
  | ⟨_, .handleRead _ _ _⟩ => inferInstanceAs (Decidable s.functors.Between)

/-- `new` gives the object an address that no live object has. -/
def request (s : TimerLoop) (timer : Nat) (object : Timer) : Except Fault TimerLoop :=
  if s.timerQueue.objects timer = none ∧ timer < uintptrMax then
    .ok {
      timerQueue := { s.timerQueue with
        objects := Function.update s.timerQueue.objects timer (some object) }
      functors := s.functors.push [timer] }
  else .error .notEnabled

def runFunctor (s : TimerLoop) (fired : Bool) (now : Int) : Except Fault TimerLoop :=
  match s.functors.next with
  | none => .error .notEnabled
  | some (timer, functors) => do
      let q ← s.timerQueue.expire fired
      let timerQueue ← q.addTimerInLoop timer now
      return { timerQueue, functors }

def step (s : TimerLoop) : TimerLoopEvent → Except Fault TimerLoop
  | .request timer object => s.request timer object
  | .call event =>
      if s.Enabled event then do
        let timerQueue ← s.timerQueue.step event
        return { s with timerQueue }
      else .error .notEnabled
  | .swapFunctors =>
      if s.functors.Between then .ok { s with functors := s.functors.swap } else .error .notEnabled
  | .runFunctor fired now => s.runFunctor fired now
  | .endFunctors =>
      if s.functors.batch = [] then .ok { s with functors := s.functors.finish }
      else .error .notEnabled

/-- What a loop does that adds all its timers on its own thread, each when its functor runs, and the
requests that wait then; `waiting` are those that wait now, in their order. -/
def served (waiting : List (Nat × Timer)) : TimerLoopEvent → List TimerEvent × List (Nat × Timer)
  | .request timer object => ([], waiting ++ [(timer, object)])
  | .call event => ([event], waiting)
  | .swapFunctors => ([], waiting)
  | .runFunctor fired now =>
      match waiting with
      | [] => ([], [])
      | (timer, object) :: rest => ([⟨fired, .addTimer ⟨timer, object, now⟩⟩], rest)
  | .endFunctors => ([], waiting)

/-- The calls of that loop. -/
def localCalls : List (Nat × Timer) → List TimerLoopEvent → List TimerEvent
  | _, [] => []
  | waiting, event :: events =>
      (served waiting event).1 ++ localCalls (served waiting event).2 events

/-- The requests that wait in the end. -/
def stillWaiting (waiting : List (Nat × Timer)) (events : List TimerLoopEvent) :
    List (Nat × Timer) :=
  events.foldl (fun waiting event => (served waiting event).2) waiting

end TimerLoop

namespace TimerQueue

/-- The queue without the objects of the timers that wait. -/
def hide (q : TimerQueue) (waiting : List (Nat × Timer)) : TimerQueue :=
  { q with objects := fun timer =>
      if timer ∈ waiting.map Prod.fst then none else q.objects timer }

/-- The timers that wait are as they were made, and not filed. -/
structure Apart (q : TimerQueue) (waiting : List (Nat × Timer)) : Prop where
  there : ∀ request ∈ waiting, q.objects request.1 = some request.2
  unfiled : ∀ entry ∈ q.timers, entry.timer ∉ waiting.map Prod.fst

/-- The queue without the timers that wait has done the same. -/
structure Hides (waiting : List (Nat × Timer)) (next lone : TimerQueue) : Prop where
  same : lone = next.hide waiting
  apart : next.Apart waiting

section Hide

variable {q : TimerQueue} {waiting : List (Nat × Timer)} {timer : Nat}

theorem object_hide (outside : timer ∉ waiting.map Prod.fst) :
    (q.hide waiting).object timer = q.object timer := by
  simp only [object, hide, if_neg outside]

/-- Reading a timer that does not wait. -/
theorem object_follows (outside : timer ∉ waiting.map Prod.fst) :
    Follows (· = Fault.notEnabled) Eq (q.object timer) ((q.hide waiting).object timer) := by
  rw [object_hide outside]
  cases q.object timer with
  | ok object => rfl
  | error fault => exact .inl rfl

theorem insert_follows (apart : q.Apart waiting) (outside : timer ∉ waiting.map Prod.fst) :
    Follows (· = Fault.notEnabled)
      (fun next lone => Hides waiting next.1 lone.1 ∧ lone.2 = next.2) (q.insert timer)
      ((q.hide waiting).insert timer) := by
  refine (object_follows outside).bind ?_
  intro object _ same
  subst same
  refine ⟨⟨rfl, apart.there, ?_⟩, rfl⟩
  intro entry inside
  rcases OrderedSet.mem_of_mem_insert inside with new | older
  · rw [new]
    exact outside
  · exact apart.unfiled entry older

theorem addTimerInLoop_follows (apart : q.Apart waiting) (outside : timer ∉ waiting.map Prod.fst)
    (now : Int) :
    Follows (· = Fault.notEnabled) (Hides waiting) (q.addTimerInLoop timer now)
      ((q.hide waiting).addTimerInLoop timer now) := by
  refine (insert_follows apart outside).bind ?_
  intro next lone hidden
  obtain ⟨next, earliestChanged⟩ := next
  obtain ⟨lone, flag⟩ := lone
  obtain ⟨⟨rfl, apart⟩, changed⟩ := hidden
  obtain rfl : flag = earliestChanged := changed
  refine (object_follows outside).bind ?_
  intro object _ same
  subst same
  cases flag with
  | false => exact ⟨rfl, apart⟩
  | true => exact ⟨rfl, apart.there, apart.unfiled⟩

/-- Setting an object that does not wait. -/
theorem hide_update (outside : timer ∉ waiting.map Prod.fst) (object : Option Timer) :
    hide { q with objects := Function.update q.objects timer object } waiting =
      { q.hide waiting with objects := Function.update (q.hide waiting).objects timer object } := by
  have objects : (fun other => if other ∈ waiting.map Prod.fst then none
        else Function.update q.objects timer object other) =
      Function.update (q.hide waiting).objects timer object := by
    funext other
    by_cases same : other = timer
    · subst same
      rw [if_neg outside, Function.update_self, Function.update_self]
    · rw [Function.update_of_ne same, Function.update_of_ne same, hide]
  rw [hide, objects]
  rfl

theorem Apart.update (apart : q.Apart waiting) (outside : timer ∉ waiting.map Prod.fst)
    (object : Option Timer) :
    Apart { q with objects := Function.update q.objects timer object } waiting := by
  refine ⟨fun request inside => ?_, apart.unfiled⟩
  have differ : request.1 ≠ timer := fun same => outside (same ▸ List.mem_map_of_mem inside)
  exact (Function.update_of_ne differ ..).trans (apart.there request inside)

/-- A free address is none of those that wait. -/
theorem Apart.outside (apart : q.Apart waiting) (free : q.objects timer = none) :
    timer ∉ waiting.map Prod.fst := by
  intro inside
  obtain ⟨request, among, rfl⟩ := List.mem_map.mp inside
  rw [apart.there request among] at free
  cases free

theorem addTimer_follows (apart : q.Apart waiting) (add : AddTimer) :
    Follows (· = Fault.notEnabled) (Hides waiting) (q.addTimer add)
      ((q.hide waiting).addTimer add) := by
  by_cases enabled : q.objects add.timer = none ∧ add.timer < uintptrMax
  · have outside := apart.outside enabled.1
    have hidden : (q.hide waiting).objects add.timer = none :=
      (if_neg outside).trans enabled.1
    rw [addTimer, addTimer, if_pos enabled, if_pos ⟨hidden, enabled.2⟩, ← hide_update outside]
    exact addTimerInLoop_follows (apart.update outside _) outside add.now
  · rw [addTimer, if_neg enabled]
    refine Follows.of_allowed ?_ _
    rfl

theorem addTimers_follows (adds : List AddTimer) (apart : q.Apart waiting) :
    Follows (· = Fault.notEnabled) (Hides waiting) (q.addTimers adds)
      ((q.hide waiting).addTimers adds) := by
  induction adds generalizing q with
  | nil => exact ⟨rfl, apart⟩
  | cons add adds ih =>
      refine (addTimer_follows apart add).bind ?_
      intro next lone hidden
      obtain ⟨rfl, apart⟩ := hidden
      exact ih apart

theorem runCallbacks_follows (expired : List Entry) (apart : q.Apart waiting)
    (outside : ∀ entry ∈ expired, entry.timer ∉ waiting.map Prod.fst)
    (callbacks : List (List AddTimer)) :
    Follows (· = Fault.notEnabled) (Hides waiting) (q.runCallbacks expired callbacks)
      ((q.hide waiting).runCallbacks expired callbacks) := by
  induction expired generalizing q callbacks with
  | nil => exact ⟨rfl, apart⟩
  | cons entry expired ih =>
      obtain ⟨first, others⟩ := List.forall_mem_cons.mp outside
      refine (object_follows first).bind ?_
      intro object _ same
      have emitted : (q.emit (.run entry.timer)).Apart waiting := ⟨apart.there, apart.unfiled⟩
      refine (addTimers_follows (callbacks.headD []) emitted).bind ?_
      intro next lone hidden
      obtain ⟨rfl, apart⟩ := hidden
      exact ih apart others callbacks.tail

theorem restartOrDelete_follows (apart : q.Apart waiting) (outside : timer ∉ waiting.map Prod.fst)
    (now : Int) :
    Follows (· = Fault.notEnabled) (Hides waiting) (q.restartOrDelete timer now)
      ((q.hide waiting).restartOrDelete timer now) := by
  refine (object_follows outside).bind ?_
  intro object _ same
  subst same
  split
  · rw [← hide_update outside]
    refine (insert_follows (apart.update outside _) outside).bind ?_
    intro next lone hidden
    exact hidden.1
  · rw [← hide_update outside]
    have apart := apart.update outside none
    exact ⟨rfl, apart.there, apart.unfiled⟩

theorem rearm_follows (apart : q.Apart waiting) (now : Int) :
    Follows (· = Fault.notEnabled) (Hides waiting) (q.rearm now) ((q.hide waiting).rearm now) := by
  unfold rearm
  rw [show (q.hide waiting).timers = q.timers from rfl]
  cases timers : q.timers with
  | nil => exact ⟨rfl, apart⟩
  | cons first rest =>
      refine (object_follows (apart.unfiled first (timers ▸ List.mem_cons_self))).bind ?_
      intro object _ same
      subst same
      exact ⟨rfl, apart.there, apart.unfiled⟩

theorem reset_follows (expired : List Entry) (apart : q.Apart waiting)
    (outside : ∀ entry ∈ expired, entry.timer ∉ waiting.map Prod.fst)
    (readings : List ResetReadings) :
    Follows (· = Fault.notEnabled) (Hides waiting) (q.reset expired readings)
      ((q.hide waiting).reset expired readings) := by
  induction expired generalizing q readings with
  | nil => exact ⟨rfl, apart⟩
  | cons entry expired ih =>
      obtain ⟨first, others⟩ := List.forall_mem_cons.mp outside
      refine (restartOrDelete_follows apart first _).bind ?_
      intro middle lone hidden
      obtain ⟨rfl, apart⟩ := hidden
      refine (rearm_follows apart _).bind ?_
      intro next lone hidden
      obtain ⟨rfl, apart⟩ := hidden
      exact ih apart others readings.tail

theorem handleRead_follows (apart : q.Apart waiting) (now : Int)
    (callbacks : List (List AddTimer)) (readings : List ResetReadings) :
    Follows (· = Fault.notEnabled) (Hides waiting) (q.handleRead now callbacks readings)
      ((q.hide waiting).handleRead now callbacks readings) := by
  have taken : (q.getExpired now).2.Apart waiting :=
    ⟨apart.there, fun entry inside =>
      apart.unfiled entry ((List.dropWhile_sublist _).mem inside)⟩
  have outside : ∀ entry ∈ (q.getExpired now).1, entry.timer ∉ waiting.map Prod.fst :=
    fun entry inside => apart.unfiled entry ((List.takeWhile_sublist _).mem inside)
  refine (runCallbacks_follows _ taken outside callbacks).bind ?_
  intro next lone hidden
  obtain ⟨rfl, apart⟩ := hidden
  exact reset_follows _ apart outside readings

theorem expire_follows (apart : q.Apart waiting) (fired : Bool) :
    Follows (· = Fault.notEnabled) (Hides waiting) (q.expire fired)
      ((q.hide waiting).expire fired) := by
  unfold expire
  split
  · rw [show (q.hide waiting).timerfd = q.timerfd from rfl]
    split
    · exact ⟨rfl, apart.there, apart.unfiled⟩
    · exact .inl rfl
  · exact ⟨rfl, apart⟩

/-- A loop's own call neither reads nor writes the timers that wait. -/
theorem step_follows (apart : q.Apart waiting) (event : TimerEvent) :
    Follows (· = Fault.notEnabled) (Hides waiting) (q.step event)
      ((q.hide waiting).step event) := by
  refine (expire_follows apart event.fired).bind ?_
  intro next lone hidden
  obtain ⟨rfl, apart⟩ := hidden
  unfold call
  cases event.call with
  | addTimer add => exact addTimer_follows apart add
  | handleRead now callbacks readings => exact handleRead_follows apart now callbacks readings

end Hide

end TimerQueue

namespace TimerLoop

variable {s after : TimerLoop} {waiting : List (Nat × Timer)}

/-- The requests that wait, in their order: each has an object of its own, which no entry files. -/
structure Waits (s : TimerLoop) (waiting : List (Nat × Timer)) : Prop where
  queued : s.functors.waiting = waiting.map Prod.fst
  once : (waiting.map Prod.fst).Nodup
  addressed : ∀ request ∈ waiting, request.1 < uintptrMax
  apart : s.timerQueue.Apart waiting

/-- The timers as the loop alone has made them. -/
def alone (s : TimerLoop) (waiting : List (Nat × Timer)) : TimerQueue := s.timerQueue.hide waiting

theorem start_waits : start.Waits [] :=
  ⟨rfl, List.nodup_nil, by simp, ⟨by simp, by simp⟩⟩

theorem hide_nil (q : TimerQueue) : q.hide [] = q := by
  simp [TimerQueue.hide]

/-- A timer that is requested waits behind the others, and the loop alone has done nothing. -/
theorem Waits.request (waits : s.Waits waiting) (filed : (s.alone waiting).Filed []) {timer : Nat}
    {object : Timer} (taken : s.request timer object = .ok after) :
    after.Waits (waiting ++ [(timer, object)]) ∧
      after.alone (waiting ++ [(timer, object)]) = s.alone waiting := by
  obtain ⟨⟨free, small⟩, returned⟩ := guard_ok taken
  cases returned
  have outside := waits.apart.outside free
  have names : (waiting ++ [(timer, object)]).map Prod.fst = waiting.map Prod.fst ++ [timer] := by
    rw [List.map_append, List.map_singleton]
  refine ⟨⟨?_, ?_, ?_, ?_, ?_⟩, ?_⟩
  · rw [names, BatchQueue.push_waiting, waits.queued]
  · rw [names]
    refine List.nodup_append.mpr ⟨waits.once, List.pairwise_singleton _ timer, ?_⟩
    intro other inside last new same
    rw [same, List.mem_singleton.mp new] at inside
    exact outside inside
  · intro request inside
    rcases List.mem_append.mp inside with older | new
    · exact waits.addressed request older
    · rw [List.mem_singleton.mp new]
      exact small
  · intro request inside
    rcases List.mem_append.mp inside with older | new
    · exact (waits.apart.update outside (some object)).there request older
    · rw [List.mem_singleton.mp new]
      exact Function.update_self ..
  · intro entry inside
    rw [names, List.mem_append, List.mem_singleton, not_or]
    refine ⟨waits.apart.unfiled entry inside, fun same => ?_⟩
    obtain ⟨filedObject, there, -⟩ := filed.keyed entry inside
    have none : (s.alone waiting).objects entry.timer = none := by
      rw [same]
      exact (if_neg outside).trans free
    rw [none] at there
    cases there
  · have objects : (fun other => if other ∈ (waiting ++ [(timer, object)]).map Prod.fst then none
          else Function.update s.timerQueue.objects timer (some object) other) =
        fun other => if other ∈ waiting.map Prod.fst then none else s.timerQueue.objects other := by
      funext other
      rw [names]
      by_cases same : other = timer
      · subst same
        rw [if_pos (by simp), if_neg outside, free]
      · rw [Function.update_of_ne same]
        refine if_congr ?_ rfl rfl
        rw [List.mem_append, List.mem_singleton, or_iff_left same]
    simp only [alone, TimerQueue.hide, objects]

/-- The first that waits is added as the loop alone adds one. -/
theorem Waits.addTimerInLoop {request : Nat × Timer} (waits : s.Waits (request :: waiting))
    (fired : Bool) (now : Int) :
    Follows (· = Fault.notEnabled) (TimerQueue.Hides waiting)
      (s.timerQueue.expire fired >>= fun q => q.addTimerInLoop request.1 now)
      ((s.alone (request :: waiting)).step
        ⟨fired, .addTimer ⟨request.1, request.2, now⟩⟩) := by
  obtain ⟨outside, -⟩ := List.nodup_cons.mp waits.once
  refine (TimerQueue.expire_follows waits.apart fired).bind ?_
  intro q lone hidden
  obtain ⟨rfl, apart⟩ := hidden
  have later : q.Apart waiting :=
    ⟨fun other inside => apart.there other (List.mem_cons_of_mem _ inside),
      fun entry inside among => apart.unfiled entry inside (List.mem_cons_of_mem _ among)⟩
  have here : q.objects request.1 = some request.2 := apart.there request List.mem_cons_self
  have objects : Function.update (q.hide (request :: waiting)).objects request.1 (some request.2) =
      (q.hide waiting).objects := by
    funext other
    by_cases same : other = request.1
    · subst same
      rw [Function.update_self]
      exact ((if_neg outside).trans here).symm
    · rw [Function.update_of_ne same]
      refine if_congr ?_ rfl rfl
      rw [List.map_cons, List.mem_cons, or_iff_right same]
  have enabled : (q.hide (request :: waiting)).objects request.1 = none ∧
      request.1 < uintptrMax :=
    ⟨if_pos List.mem_cons_self, waits.addressed request List.mem_cons_self⟩
  have added : (q.hide (request :: waiting)).call (.addTimer ⟨request.1, request.2, now⟩) =
      (q.hide waiting).addTimerInLoop request.1 now := by
    rw [TimerQueue.call, TimerQueue.addTimer, if_pos enabled, objects]
    rfl
  rw [added]
  exact TimerQueue.addTimerInLoop_follows later outside now

/-- Each step is one of the loop alone, or none. -/
theorem step_served (waits : s.Waits waiting) (filed : (s.alone waiting).Filed [])
    {event : TimerLoopEvent} (taken : s.step event = .ok after) :
    after.Waits (served waiting event).2 ∧
      run TimerQueue.step (s.alone waiting) (served waiting event).1 =
        .ok (after.alone (served waiting event).2) := by
  cases event with
  | request timer object =>
      obtain ⟨behind, same⟩ := waits.request filed taken
      exact ⟨behind, congrArg Except.ok same.symm⟩
  | call event =>
      obtain ⟨-, called⟩ := guard_ok taken
      obtain ⟨timerQueue, stepped, returned⟩ := (bind_ok_iff _ _ _).mp called
      cases returned
      have follows := TimerQueue.step_follows waits.apart event
      rw [stepped] at follows
      obtain ⟨lone, ran, same, apart⟩ := follows.of_ok
      refine ⟨⟨waits.queued, waits.once, waits.addressed, apart⟩, ?_⟩
      exact (run_cons_ok_iff _ _ _ _).mpr ⟨lone, ran, congrArg Except.ok same⟩
  | swapFunctors =>
      obtain ⟨between, returned⟩ := guard_ok taken
      cases returned
      exact ⟨⟨(BatchQueue.swap_waiting between).trans waits.queued, waits.once, waits.addressed,
        waits.apart⟩, rfl⟩
  | runFunctor fired now =>
      simp only [step, TimerLoop.runFunctor] at taken
      cases front : s.functors.next with
      | none =>
          rw [front] at taken
          cases taken
      | some entry =>
          obtain ⟨timer, functors⟩ := entry
          rw [front] at taken
          have queued := (BatchQueue.next_waiting front).symm.trans waits.queued
          cases waiting with
          | nil => cases queued
          | cons request waiting =>
              obtain ⟨rfl, behind⟩ := List.cons.inj queued
              have follows := waits.addTimerInLoop fired now
              obtain ⟨q, expired, called⟩ := (bind_ok_iff _ _ _).mp taken
              obtain ⟨timerQueue, added, returned⟩ := (bind_ok_iff _ _ _).mp called
              cases returned
              rw [(bind_ok_iff _ _ _).mpr ⟨q, expired, added⟩] at follows
              obtain ⟨lone, ran, same, apart⟩ := follows.of_ok
              refine ⟨⟨behind, (List.nodup_cons.mp waits.once).2,
                fun other inside => waits.addressed other (List.mem_cons_of_mem _ inside),
                apart⟩, ?_⟩
              exact (run_cons_ok_iff _ _ _ _).mpr ⟨lone, ran, congrArg Except.ok same⟩
  | endFunctors =>
      obtain ⟨-, returned⟩ := guard_ok taken
      cases returned
      exact ⟨⟨waits.queued, waits.once, waits.addressed, waits.apart⟩, rfl⟩

/-- A step fails only where it is not enabled. -/
theorem step_enabled (waits : s.Waits waiting) (filed : (s.alone waiting).Filed [])
    (event : TimerLoopEvent) : Spec (· = Fault.notEnabled) (fun _ => True) (s.step event) := by
  cases event with
  | request timer object => exact .guard (fun _ => trivial) rfl
  | call event =>
      refine .guard (fun _ => ?_) rfl
      have called := (TimerQueue.step_follows waits.apart event).spec
        (TimerQueue.step_filed filed event)
      exact called.bind fun _ _ => trivial
  | swapFunctors => exact .guard (fun _ => trivial) rfl
  | runFunctor fired now =>
      simp only [step, TimerLoop.runFunctor]
      cases front : s.functors.next with
      | none => rfl
      | some entry =>
          obtain ⟨timer, functors⟩ := entry
          have queued := (BatchQueue.next_waiting front).symm.trans waits.queued
          cases waiting with
          | nil => cases queued
          | cons request waiting =>
              obtain ⟨rfl, -⟩ := List.cons.inj queued
              have added := (waits.addTimerInLoop fired now).spec (TimerQueue.step_filed filed _)
              have called : Spec (· = Fault.notEnabled) (fun _ => True)
                  ((s.timerQueue.expire fired >>= fun q => q.addTimerInLoop request.1 now) >>=
                    fun timerQueue => .ok (TimerLoop.mk timerQueue functors)) :=
                added.bind fun _ _ => trivial
              rw [bind_assoc] at called
              exact called
  | endFunctors => exact .guard (fun _ => trivial) rfl

theorem run_served {events : List TimerLoopEvent} {target : TimerLoop} (waits : s.Waits waiting)
    (filed : (s.alone waiting).Filed []) (reached : run step s events = .ok target) :
    target.Waits (stillWaiting waiting events) ∧
      run TimerQueue.step (s.alone waiting) (localCalls waiting events) =
        .ok (target.alone (stillWaiting waiting events)) := by
  induction events generalizing s waiting with
  | nil =>
      cases reached
      exact ⟨waits, rfl⟩
  | cons event events ih =>
      obtain ⟨next, taken, rest⟩ := (run_cons_ok_iff _ _ _ _).mp reached
      obtain ⟨later, ran⟩ := step_served waits filed taken
      have kept : (next.alone (served waiting event).2).Filed [] :=
        Reachable.preserves (TimerQueue.Filed [])
          (fun _ event _ filed taken => (TimerQueue.step_filed filed event).of_ok taken)
          filed ⟨_, ran⟩
      obtain ⟨last, others⟩ := ih later kept rest
      refine ⟨last, ?_⟩
      rw [localCalls, run_append, ran]
      exact others

/-- A run of the timers has a history. -/
theorem history_of_run {calls : List TimerEvent} {q target : TimerQueue}
    (ran : run TimerQueue.step q calls = .ok target) (lives : Nat → List TimerLife) :
    ∃ h, run TimerHistory.step ⟨q, lives⟩ calls = .ok h ∧ h.queue = target := by
  induction calls generalizing q lives with
  | nil =>
      cases ran
      exact ⟨_, rfl, rfl⟩
  | cons call calls ih =>
      obtain ⟨next, taken, rest⟩ := (run_cons_ok_iff _ _ _ _).mp ran
      obtain ⟨h, reached, same⟩ := ih rest _
      refine ⟨h, (run_cons_ok_iff _ _ _ _).mpr ⟨⟨next, _⟩, ?_, reached⟩, same⟩
      exact (bind_ok_iff _ _ _).mpr ⟨next, taken, rfl⟩

/-- Timers may be added on any thread: however the requests interleave with the calls of the loop
and its functors, the timers are those of a loop that has added each on its own thread when its
functor ran, in the order of the requests. So every timer is filed once and run and deleted as
there, or it waits, as it was made and not filed; and no step touches a timer that is deleted. -/
theorem requests_served (events : List TimerLoopEvent) (reached : run step start events = .ok s)
    (event : TimerLoopEvent) :
    s.Waits (stillWaiting [] events) ∧
      (∃ h, run TimerHistory.step .start (localCalls [] events) = .ok h ∧
        h.queue = s.alone (stillWaiting [] events) ∧ h.Delivered) ∧
      Spec (· = Fault.notEnabled) (fun _ => True) (s.step event) := by
  have created : start.alone [] = .create := hide_nil _
  have filed : (start.alone []).Filed [] := created ▸ TimerQueue.filed_create
  obtain ⟨waits, ran⟩ := run_served start_waits filed reached
  have kept : (s.alone (stillWaiting [] events)).Filed [] :=
    Reachable.preserves (TimerQueue.Filed [])
      (fun _ event _ filed taken => (TimerQueue.step_filed filed event).of_ok taken) filed ⟨_, ran⟩
  rw [created] at ran
  obtain ⟨h, history, same⟩ := history_of_run ran (fun _ => [])
  have accounted : h.Accounted := Reachable.preserves TimerHistory.Accounted
    (fun _ _ _ kept taken => (TimerHistory.step_accounted kept taken).1)
    TimerHistory.start_accounted ⟨_, history⟩
  exact ⟨waits, ⟨h, history, same, accounted.delivered⟩, step_enabled waits kept event⟩

/-- A timer of the loop's own and two of other threads. The second is requested after the batch is
swapped out, so it still waits when the loop has run the others. -/
theorem requests_served_late :
    ∃ s, run step start
        [.call ⟨false, .addTimer ⟨8, ⟨100, 0, false⟩, 0⟩⟩, .request 16 ⟨50, 0, false⟩,
          .swapFunctors, .request 24 ⟨60, 20, true⟩, .runFunctor false 10, .endFunctors,
          .call ⟨true, .handleRead 120 [] [⟨121, 122⟩, ⟨123, 124⟩]⟩] = .ok s ∧
      s.timerQueue.trace.reverse = [.run 16, .run 8, .delete 16, .delete 8] ∧
      s.functors.waiting = [24] ∧ s.Waits [(24, ⟨60, 20, true⟩)] := by
  obtain ⟨s, reached, facts⟩ := (map_ok_iff _ _ _).mp
    (show (run step start
        [.call ⟨false, .addTimer ⟨8, ⟨100, 0, false⟩, 0⟩⟩, .request 16 ⟨50, 0, false⟩,
          .swapFunctors, .request 24 ⟨60, 20, true⟩, .runFunctor false 10, .endFunctors,
          .call ⟨true, .handleRead 120 [] [⟨121, 122⟩, ⟨123, 124⟩]⟩]).map
      (fun s => (s.timerQueue.trace.reverse, s.functors.waiting)) =
        .ok ([.run 16, .run 8, .delete 16, .delete 8], [24]) by decide +kernel)
  obtain ⟨trace, waiting⟩ := Prod.mk.inj facts
  exact ⟨s, reached, trace, waiting, (requests_served _ reached .swapFunctors).1⟩

end TimerLoop

end KamaWebserver
