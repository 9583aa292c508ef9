import KamaWebserver.TimerDelivery

set_option autoImplicit false

namespace KamaWebserver

open Outcome Transition

/-- A timer as it was made, and the clock readings of the calls of `handleRead` that have run its
callback, newest first. -/
structure TimedLife where
  made : Timer
  runs : List Int

/-- A queue, and the last timer there has been at each address. -/
structure TimerPace where
  queue : TimerQueue
  lives : Nat → Option TimedLife

/-- Two runs are at least an interval apart, and the run after `k` others comes no earlier than `k`
intervals after the first expiration. -/
structure TimedLife.Paced (life : TimedLife) : Prop where
  apart : life.runs.IsChain fun later earlier => earlier + life.made.delta ≤ later
  reached : ∀ (k : Nat) (run : Int), life.runs.reverse[k]? = some run →
    life.made.expiration + k * life.made.delta ≤ run

/-- The timer has been run at the readings. -/
def TimedLife.extend (life : TimedLife) (readings : List Int) : TimedLife :=
  { life with runs := readings ++ life.runs }

namespace TimerPace

def start : TimerPace := ⟨.create, fun _ => none⟩

/-- What has been at the address once the timers are added. -/
def born (timer : Nat) (adds : List AddTimer) (life : Option TimedLife) : Option TimedLife :=
  adds.foldl (fun life add => if add.timer = timer then some ⟨add.object, []⟩ else life) life

/-- The clock reading of the call, if it has run the timer. -/
def readings (q next : TimerQueue) (timer : Nat) : TimerCall → List Int
  | .addTimer _ => []
  | .handleRead now _ _ => if timer ∈ q.ran next then [now] else []

def step (h : TimerPace) (event : TimerEvent) : Except Fault TimerPace := do
  let next ← h.queue.step event
  return {
    queue := next
    lives timer := (born timer (h.queue.added event.call) (h.lives timer)).map fun life =>
      life.extend (readings h.queue next timer event.call) }

/-- While `handleRead` runs, the clock does not go back behind its first reading. -/
def Steady (h : TimerPace) (event : TimerEvent) : Prop :=
  match event.call with
  | .addTimer _ => True
  | .handleRead now _ resets =>
      ∀ k < (h.queue.getExpired now).1.length, now ≤ (resets.getD k ⟨0, 0⟩).restart

instance (h : TimerPace) (event : TimerEvent) : Decidable (h.Steady event) :=
  match event with
  | ⟨_, .addTimer _⟩ => isTrue trivial
  | ⟨_, .handleRead now _ resets⟩ => inferInstanceAs (Decidable
      (∀ k < (h.queue.getExpired now).1.length, now ≤ (resets.getD k ⟨0, 0⟩).restart))

/-- No repeating timer runs faster than its interval. -/
def Paced (h : TimerPace) : Prop :=
  ∀ timer life, h.lives timer = some life → life.made.repeats = true → life.Paced

/-- A repeating timer that is still there expires an interval after its last run at the earliest. -/
structure Due (life : TimedLife) (current : Timer) : Prop where
  repeats : current.repeats = true
  delta : current.delta = life.made.delta
  first : life.made.expiration + life.runs.length * life.made.delta ≤ current.expiration
  next : ∀ latest ∈ life.runs.head?, latest + life.made.delta ≤ current.expiration
  paced : life.Paced

/-- What the life at an address says about the object there. -/
def Keeps (life : Option TimedLife) (object : Option Timer) : Prop :=
  ∀ known, life = some known → known.made.repeats = true →
    ∃ current, object = some current ∧ Due known current

theorem due_made {made : Timer} (repeats : made.repeats = true) : Due ⟨made, []⟩ made where
  repeats := repeats
  delta := rfl
  first := by simp
  next := by simp
  paced := ⟨List.IsChain.nil, by simp⟩

/-- A timer that has expired is run and gets its next expiration from a later reading. -/
theorem Due.run {life : TimedLife} {current : Timer} (due : Due life current) {now reading : Int}
    (expired : current.expiration ≤ now) (later : now ≤ reading) :
    Due (life.extend [now]) (current.restart reading) := by
  have again : (current.restart reading).expiration = reading + life.made.delta := by
    simp [Timer.restart, due.repeats, due.delta]
  have split : ((life.runs.length + 1 : Nat) : Int) * life.made.delta =
      life.runs.length * life.made.delta + life.made.delta := by
    rw [Int.natCast_succ, Int.add_mul, Int.one_mul]
  have first := due.first
  refine ⟨due.repeats, due.delta, ?_, ?_, ?_, ?_⟩
  · rw [again]
    show life.made.expiration + ((life.runs.length + 1 : Nat) : Int) * life.made.delta ≤ _
    omega
  · rw [again]
    simp [TimedLife.extend]
    omega
  · cases runs : life.runs with
    | nil =>
        rw [TimedLife.extend, runs]
        exact List.IsChain.singleton _
    | cons latest earlier =>
        have next := due.next latest (by simp [runs])
        have apart := due.paced.apart
        rw [runs] at apart
        rw [TimedLife.extend, runs]
        exact List.IsChain.cons_cons (by dsimp only; omega) apart
  · intro k run found
    have whole : (life.extend [now]).runs.reverse = life.runs.reverse ++ [now] := by
      simp [TimedLife.extend]
    rw [whole, List.getElem?_append] at found
    split at found
    · exact due.paced.reached k run found
    · rename_i last
      rw [List.getElem?_singleton] at found
      split at found
      · rename_i zero
        rw [List.length_reverse] at last zero
        have here : k = life.runs.length := by omega
        cases found
        rw [here]
        show life.made.expiration + life.runs.length * life.made.delta ≤ now
        omega
      · cases found

section Calls

open TimerQueue

variable {timer : Nat} {life : Option TimedLife} {held : List Nat} {q next : TimerQueue}

theorem born_of_absent {adds : List AddTimer} (absent : ∀ add ∈ adds, add.timer ≠ timer) :
    born timer adds life = life := by
  induction adds with
  | nil => rfl
  | cons add adds ih =>
      obtain ⟨other, others⟩ := List.forall_mem_cons.mp absent
      rw [born, List.foldl_cons, if_neg other]
      exact ih others

theorem Keeps.addTimers (kept : q.Kept held) {adds : List AddTimer}
    (returned : q.addTimers adds = .ok next) (keeps : Keeps life (q.objects timer)) :
    Keeps (born timer adds life) (next.objects timer) := by
  induction adds generalizing q life with
  | nil =>
      cases returned
      exact keeps
  | cons add adds ih =>
      obtain ⟨middle, first, rest⟩ := (bind_ok_iff _ _ _).mp returned
      obtain ⟨kept, -, objects, -⟩ := kept.addTimer first
      rw [born, List.foldl_cons]
      refine ih kept rest ?_
      rw [objects]
      by_cases same : add.timer = timer
      · subst same
        rw [if_pos rfl, Function.update_self]
        intro known new repeats
        cases new
        exact ⟨add.object, rfl, due_made repeats⟩
      · rw [if_neg same, Function.update_of_ne (Ne.symm same)]
        exact keeps

theorem Keeps.runCallbacks (kept : q.Kept held) {expired : List Entry}
    {callbacks : List (List AddTimer)} (returned : q.runCallbacks expired callbacks = .ok next)
    (keeps : Keeps life (q.objects timer)) :
    Keeps (born timer (callbacks.take expired.length).flatten life) (next.objects timer) := by
  induction expired generalizing q callbacks life with
  | nil =>
      cases returned
      simpa [born] using keeps
  | cons entry expired ih =>
      obtain ⟨object, -, called⟩ := (bind_ok_iff _ _ _).mp returned
      obtain ⟨middle, first, rest⟩ := (bind_ok_iff _ _ _).mp called
      have emitted := kept.emit (.run entry.timer)
      obtain ⟨between, -⟩ := emitted.addTimers first
      rw [List.length_cons, flatten_take_succ, born, List.foldl_append]
      exact ih between rest (keeps.addTimers emitted first)

/-- A repeating timer is restarted at the reading given. -/
theorem restartOrDelete_restarts {object : Timer} {now : Int}
    (there : q.objects timer = some object) (repeats : object.repeats = true)
    (returned : q.restartOrDelete timer now = .ok next) :
    next.objects timer = some (object.restart now) := by
  have restarted : Function.update q.objects timer (some (object.restart now)) timer =
      some (object.restart now) := Function.update_self ..
  simp only [restartOrDelete, object_eq_ok there, bind, Except.bind] at returned
  rw [if_pos repeats] at returned
  simp only [TimerQueue.insert, bind, Except.bind, TimerQueue.object, restarted] at returned
  cases returned
  exact restarted

/-- The loop of `reset` restarts the expired timers at readings that are not before `now`. -/
theorem reset_restarts {now : Int} {expired : List Entry}
    (kept : q.Kept (expired.map Entry.timer)) {resets : List ResetReadings}
    (steady : ∀ k < expired.length, now ≤ (resets.getD k ⟨0, 0⟩).restart)
    (returned : q.reset expired resets = .ok next) (inside : timer ∈ expired.map Entry.timer)
    {object : Timer} (there : q.objects timer = some object) (repeats : object.repeats = true) :
    ∃ reading, now ≤ reading ∧ next.objects timer = some (object.restart reading) := by
  induction expired generalizing q resets with
  | nil => cases inside
  | cons entry expired ih =>
      obtain ⟨middle, first, rest⟩ := (bind_ok_iff _ _ _).mp returned
      obtain ⟨armed, second, rest⟩ := (bind_ok_iff _ _ _).mp rest
      have alone : entry.timer ∉ expired.map Entry.timer := by
        have apart := kept.filed.apart
        rw [List.map_cons, List.cons_append, List.nodup_cons, List.mem_append, not_or] at apart
        exact apart.1.1
      obtain ⟨between, others, -⟩ := kept.restartOrDelete first
      obtain ⟨ready, objects, -⟩ := between.rearm second
      by_cases here : timer = entry.timer
      · subst here
        obtain ⟨-, effects, -, -, each⟩ := ready.reset rest
        have now_le := steady 0 (Nat.succ_pos _)
        refine ⟨(resets.headD ⟨0, 0⟩).restart, ?_, ?_⟩
        · rwa [List.getD_eq_getElem?_getD, ← List.head?_eq_getElem?, ← List.headD_eq_head?_getD]
            at now_le
        · rw [((each entry.timer).2 alone).1, objects]
          exact restartOrDelete_restarts there repeats first
      · have later : ∀ k < expired.length, now ≤ (resets.tail.getD k ⟨0, 0⟩).restart := by
          intro k bound
          have reading := steady (k + 1) (Nat.succ_lt_succ bound)
          rwa [List.getD_eq_getElem?_getD, ← List.getElem?_tail, ← List.getD_eq_getElem?_getD]
            at reading
        have among := (List.mem_cons.mp inside).resolve_left here
        refine ih ready later rest among ?_
        rw [objects, others timer here]
        exact there

theorem Keeps.extend_nil (keeps : Keeps life (q.objects timer)) :
    Keeps (life.map (·.extend [])) (q.objects timer) := by
  have same : (fun life : TimedLife => life.extend []) = id := rfl
  rw [same, Option.map_id, id]
  exact keeps

theorem Keeps.handleRead (kept : q.Kept []) {now : Int} {callbacks : List (List AddTimer)}
    {resets : List ResetReadings} (returned : q.handleRead now callbacks resets = .ok next)
    (steady : ∀ k < (q.getExpired now).1.length, now ≤ (resets.getD k ⟨0, 0⟩).restart)
    (keeps : Keeps life (q.objects timer)) :
    Keeps ((born timer (q.added (.handleRead now callbacks resets)) life).map
      (·.extend (readings q next timer (.handleRead now callbacks resets))))
        (next.objects timer) := by
  have ran := (kept.runsExpired returned).exactly timer
  rw [← kept.mem_expired_iff now timer] at ran
  obtain ⟨middle, called, resetting⟩ := (bind_ok_iff _ _ _).mp returned
  have taken := kept.getExpired now
  obtain ⟨between, -, fresh, stays⟩ := taken.runCallbacks called
  by_cases expired : timer ∈ (q.getExpired now).1.map Entry.timer
  · obtain ⟨object, there, reached⟩ := (kept.mem_expired_iff now timer).mp expired
    have absent : ∀ add ∈ q.added (.handleRead now callbacks resets), add.timer ≠ timer := by
      intro add inside same
      have none : q.objects add.timer = none := fresh add inside
      rw [same, there] at none
      cases none
    rw [born_of_absent absent, readings, if_pos (ran.mpr expired)]
    intro known found repeats
    obtain ⟨before, same, rfl⟩ := Option.map_eq_some_iff.mp found
    obtain ⟨current, here, due⟩ := keeps before same repeats
    cases there.symm.trans here
    obtain ⟨reading, later, restarted⟩ := reset_restarts between steady resetting expired
      (stays timer object there) due.repeats
    exact ⟨_, restarted, due.run reached later⟩
  · obtain ⟨-, other, deleted, calledToo, -, -, each⟩ := kept.handleRead returned
    cases called.symm.trans calledToo
    rw [((each timer).2 expired).1, readings, if_neg (fun inside => expired (ran.mp inside))]
    exact (Keeps.runCallbacks taken called keeps).extend_nil

end Calls

/-- The queue is in order, and each repeating timer there has been is there. -/
structure Sound (h : TimerPace) : Prop where
  kept : h.queue.Kept []
  keeps : ∀ timer, Keeps (h.lives timer) (h.queue.objects timer)

theorem Sound.paced {h : TimerPace} (sound : h.Sound) : h.Paced := by
  intro timer life there repeats
  obtain ⟨current, -, due⟩ := sound.keeps timer life there repeats
  exact due.paced

theorem start_sound : start.Sound :=
  ⟨TimerQueue.kept_create, fun timer life there => by cases there⟩

/-- A call keeps what the lives say about the objects. -/
theorem call_keeps {q next : TimerQueue} (kept : q.Kept []) {call : TimerCall}
    (returned : q.call call = .ok next) {fired : Bool} {lives : Nat → Option TimedLife}
    (steady : (TimerPace.mk q lives).Steady ⟨fired, call⟩) {timer : Nat} {life : Option TimedLife}
    (keeps : Keeps life (q.objects timer)) :
    next.Kept [] ∧ Keeps ((born timer (q.added call) life).map
      (·.extend (readings q next timer call))) (next.objects timer) := by
  cases call with
  | addTimer add =>
      have alone : q.addTimers [add] = .ok next :=
        (bind_ok_iff _ _ _).mpr ⟨next, returned, rfl⟩
      exact ⟨(kept.addTimer returned).1, (keeps.addTimers kept alone).extend_nil⟩
  | handleRead now callbacks resets =>
      exact ⟨(kept.handleRead returned).1, keeps.handleRead kept returned steady⟩

theorem Sound.step {h next : TimerPace} (sound : h.Sound) {event : TimerEvent}
    (steady : h.Steady event) (taken : h.step event = .ok next) : next.Sound := by
  obtain ⟨fired, call⟩ := event
  obtain ⟨queue, called, result⟩ := (bind_ok_iff _ _ _).mp taken
  obtain ⟨middle, expired, called⟩ := (bind_ok_iff _ _ _).mp called
  cases result
  obtain ⟨kept, timers, objects, trace⟩ := TimerHistory.expire_kept sound.kept expired
  -- the expiry of the descriptor changes neither what is added nor what is run
  have since : middle.since queue = h.queue.since queue := by
    rw [TimerQueue.since, trace, TimerQueue.since]
  have ran : middle.ran queue = h.queue.ran queue := by
    rw [TimerQueue.ran, since, TimerQueue.ran]
  have added : middle.added call = h.queue.added call := by
    cases call with
    | addTimer add => rfl
    | handleRead now callbacks resets =>
        simp only [TimerQueue.added, TimerQueue.getExpired, timers]
  have read : ∀ timer, readings middle queue timer call = readings h.queue queue timer call := by
    intro timer
    cases call with
    | addTimer add => rfl
    | handleRead now callbacks resets => rw [readings, ran, readings]
  have same : (TimerPace.mk middle h.lives).Steady ⟨fired, call⟩ := by
    cases call with
    | addTimer add => trivial
    | handleRead now callbacks resets =>
        have expiring : (middle.getExpired now).1 = (h.queue.getExpired now).1 := by
          simp only [TimerQueue.getExpired, timers]
        simp only [Steady, expiring]
        exact steady
  have keeps : ∀ timer, Keeps (h.lives timer) (middle.objects timer) := by
    rw [objects]
    exact sound.keeps
  refine ⟨(call_keeps kept called same (keeps 0)).1, fun timer => ?_⟩
  have after := (call_keeps kept called same (keeps timer)).2
  rw [added, read] at after
  exact after

/-- In every run in which the clock does not go back while a `handleRead` runs, whatever it
does between calls, a repeating timer never runs faster than its interval: two runs are an
interval apart, and the `n`th run, counted from 0, comes no earlier than `n` intervals after
the first expiration. -/
theorem timers_paced (events : List TimerEvent) (steady : Guarded step Steady start events) :
    Always step Paced (· = Fault.notEnabled) start events := by
  refine always_of_guarded Sound (fun _ sound => sound.paced) ?_ start_sound steady
  intro h event sound steady
  cases taken : h.step event with
  | ok next => exact sound.step steady taken
  | error fault =>
      have allowed := TimerQueue.step_filed sound.kept.filed event
      unfold step at taken
      cases result : h.queue.step event with
      | ok queue =>
          rw [result] at taken
          cases taken
      | error own =>
          rw [result] at taken
          cases taken
          exact allowed.of_error result

/-- A timer due at 100 with an interval of 50 is run at 110, late at 400 and, the clock set back
and forth between the calls, at 460. -/
theorem timers_paced_thrice :
    ∃ h, run step start
        [⟨false, .addTimer ⟨16, ⟨100, 50, true⟩, 10⟩⟩, ⟨true, .handleRead 110 [] [⟨113, 114⟩]⟩,
          ⟨true, .handleRead 400 [] [⟨401, 402⟩]⟩, ⟨false, .handleRead 90 [] []⟩,
          ⟨true, .handleRead 460 [] [⟨460, 461⟩]⟩] = .ok h ∧
      (h.lives 16).map TimedLife.runs = some [460, 400, 110] ∧
      Always step Paced (· = Fault.notEnabled) start
        [⟨false, .addTimer ⟨16, ⟨100, 50, true⟩, 10⟩⟩, ⟨true, .handleRead 110 [] [⟨113, 114⟩]⟩,
          ⟨true, .handleRead 400 [] [⟨401, 402⟩]⟩, ⟨false, .handleRead 90 [] []⟩,
          ⟨true, .handleRead 460 [] [⟨460, 461⟩]⟩] := by
  obtain ⟨h, reached, facts⟩ := (map_ok_iff _ _ _).mp
    (show (run step start
        [⟨false, .addTimer ⟨16, ⟨100, 50, true⟩, 10⟩⟩, ⟨true, .handleRead 110 [] [⟨113, 114⟩]⟩,
          ⟨true, .handleRead 400 [] [⟨401, 402⟩]⟩, ⟨false, .handleRead 90 [] []⟩,
          ⟨true, .handleRead 460 [] [⟨460, 461⟩]⟩]).map
      (fun h => (h.lives 16).map TimedLife.runs) = .ok (some [460, 400, 110]) by decide +kernel)
  exact ⟨h, reached, facts, timers_paced _ (by decide +kernel)⟩

end TimerPace

end KamaWebserver
