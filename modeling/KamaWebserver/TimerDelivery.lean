import KamaWebserver.TimerLiveness

set_option autoImplicit false

namespace KamaWebserver

open Outcome Transition

def TimerEffect.timer : TimerEffect → Nat
  | .run timer => timer
  | .delete timer => timer

/-- The life of a `Timer` from its `addTimer` on: the object as it was made, and what the queue
has done with it, newest first. -/
structure TimerLife where
  object : Timer
  effects : List TimerEffect

/-- A queue, and the lives there have been at each address, newest first. -/
structure TimerHistory where
  queue : TimerQueue
  lives : Nat → List TimerLife

namespace TimerQueue

/-- What has been done between two states, newest first. -/
def since (q next : TimerQueue) : List TimerEffect :=
  next.trace.take (next.trace.length - q.trace.length)

/-- The timers whose callbacks have been run between two states, in order. -/
def ran (q next : TimerQueue) : List Nat :=
  (q.since next).reverse.filterMap fun
    | .run timer => some timer
    | .delete _ => none

/-- The timers a call adds, in order: `handleRead` runs one callback for each expired timer. -/
def added (q : TimerQueue) : TimerCall → List AddTimer
  | .addTimer add => [add]
  | .handleRead now callbacks _ => (callbacks.take (q.getExpired now).1.length).flatten

/-- The object is in memory and filed once, under its current expiration. -/
def FiledOnce (q : TimerQueue) (timer : Nat) (object : Timer) : Prop :=
  q.objects timer = some object ∧
    q.timers.filter (·.timer = timer) = [⟨object.expiration, timer⟩]

/-- The callbacks run are those of the timers that have expired, each once, in the order of
their expirations. -/
structure RunsExpired (q next : TimerQueue) (now : Int) : Prop where
  exactly : ∀ timer, timer ∈ q.ran next ↔
    ∃ object, q.objects timer = some object ∧ object.expiration ≤ now
  once : (q.ran next).Nodup
  ordered : (q.ran next).Pairwise fun first second => ∀ one two,
    q.objects first = some one → q.objects second = some two → one.expiration ≤ two.expiration

/-- `addTimer` runs and deletes nothing, `handleRead` runs what has expired. -/
def Runs (q next : TimerQueue) : TimerCall → Prop
  | .addTimer _ => q.since next = []
  | .handleRead now _ _ => q.RunsExpired next now

end TimerQueue

namespace TimerLife

/-- A one-shot timer that has been run once and then deleted once. -/
def Done (timer : Nat) (life : TimerLife) : Prop :=
  life.object.repeats = false ∧ life.effects = [.delete timer, .run timer]

/-- A one-shot timer that has not been run, or a repeating one. -/
def Waiting (q : TimerQueue) (timer : Nat) (life : TimerLife) : Prop :=
  if life.object.repeats then
    (∀ effect ∈ life.effects, effect = .run timer) ∧
      ∃ object, object.repeats = true ∧ object.delta = life.object.delta ∧ q.FiledOnce timer object
  else life.effects = [] ∧ q.FiledOnce timer life.object

end TimerLife

namespace TimerHistory

def start : TimerHistory := ⟨.create, fun _ => []⟩

/-- The lives that begin at an address, newest first. -/
def born (adds : List AddTimer) (timer : Nat) : List TimerLife :=
  (adds.filter (·.timer = timer)).reverse.map fun add => ⟨add.object, []⟩

/-- More is done with the timer that is at an address now. -/
def prolong (effects : List TimerEffect) : List TimerLife → List TimerLife
  | [] => []
  | life :: past => { life with effects := effects ++ life.effects } :: past

def step (h : TimerHistory) (event : TimerEvent) : Except Fault TimerHistory := do
  let next ← h.queue.step event
  return {
    queue := next
    lives timer := prolong ((h.queue.since next).filter (·.timer = timer))
      (born (h.queue.added event.call) timer ++ h.lives timer) }

/-- At each address there is a timer that waits, or none; all others there have been are
done. -/
def Delivered (h : TimerHistory) : Prop :=
  ∀ timer,
    (∃ life past, h.lives timer = life :: past ∧ life.Waiting h.queue timer ∧
      ∀ old ∈ past, old.Done timer) ∨
    (∀ old ∈ h.lives timer, old.Done timer) ∧ h.queue.objects timer = none ∧
      h.queue.timers.filter (·.timer = timer) = []

end TimerHistory

namespace TimerQueue

variable {held : List Nat} {q next : TimerQueue}

/-- Every object is filed or held, and no address is that of the sentry. -/
structure Kept (held : List Nat) (q : TimerQueue) : Prop where
  filed : Filed held q
  complete : ∀ timer, q.objects timer ≠ none → timer ∈ held ∨ timer ∈ q.timers.map Entry.timer
  addressed : ∀ timer, q.objects timer ≠ none → timer < uintptrMax

theorem kept_create : create.Kept [] :=
  ⟨filed_create, fun _ present => absurd rfl present, fun _ present => absurd rfl present⟩

theorem since_of_trace {effects : List TimerEffect} (grown : next.trace = effects ++ q.trace) :
    q.since next = effects := by
  rw [since, grown, List.length_append, Nat.add_sub_cancel, List.take_left]

/-- No address is filed that has no object. -/
theorem Kept.unfiled (kept : q.Kept held) {timer : Nat} (absent : q.objects timer = none) :
    q.timers.filter (·.timer = timer) = [] := by
  refine List.filter_eq_nil_iff.mpr fun entry inside => ?_
  obtain ⟨object, there, -⟩ := kept.filed.keyed entry inside
  rw [decide_eq_true_eq]
  rintro rfl
  rw [absent] at there
  cases there

/-- Between calls an object is filed, and only once: its address occurs once. -/
theorem Kept.filedOnce (kept : q.Kept []) {timer : Nat} {object : Timer}
    (there : q.objects timer = some object) : q.FiledOnce timer object := by
  refine ⟨there, ?_⟩
  have present : timer ∈ q.timers.map Entry.timer :=
    (kept.complete timer (by simp [there])).resolve_left List.not_mem_nil
  obtain ⟨entry, inside, rfl⟩ := List.mem_map.mp present
  obtain ⟨other, same, keyed⟩ := kept.filed.keyed entry inside
  obtain rfl : object = other := Option.some.inj (there.symm.trans same)
  have alone : (q.timers.map Entry.timer).Nodup := kept.filed.apart
  obtain ⟨before, after, parts⟩ := List.append_of_mem inside
  rw [parts, List.map_append, List.map_cons, List.nodup_append, List.nodup_cons] at alone
  obtain ⟨-, ⟨later, -⟩, earlier⟩ := alone
  have front : before.filter (·.timer = entry.timer) = [] := by
    refine List.filter_eq_nil_iff.mpr fun other among => ?_
    rw [decide_eq_true_eq]
    exact earlier _ (List.mem_map_of_mem among) _ List.mem_cons_self
  have back : after.filter (·.timer = entry.timer) = [] := by
    refine List.filter_eq_nil_iff.mpr fun other among => ?_
    rw [decide_eq_true_eq]
    intro equal
    exact later (equal ▸ List.mem_map_of_mem among)
  rw [parts, List.filter_append, front, List.filter_cons_of_pos (by simp), back, keyed]
  rfl

/-- A timer is filed: no other address and nothing done is touched. -/
theorem Kept.addTimer (kept : q.Kept held) {add : AddTimer} (returned : q.addTimer add = .ok next) :
    next.Kept held ∧ q.objects add.timer = none ∧
      next.objects = Function.update q.objects add.timer (some add.object) ∧
      next.trace = q.trace := by
  have filed := ((addTimer_spec kept.filed add).of_ok returned).1
  obtain ⟨fits, added⟩ := guard_ok returned
  have there : Function.update q.objects add.timer (some add.object) add.timer =
      some add.object := Function.update_self ..
  obtain ⟨entries, changed, inserted, -, members, -⟩ :=
    insert_filed (kept.filed.hold fits.1 add.object) there
  simp only [addTimerInLoop, inserted, bind, Except.bind, object, there] at added
  have result : next.objects = Function.update q.objects add.timer (some add.object) ∧
      next.trace = q.trace ∧ next.timers = entries := by
    cases changed
    all_goals
      cases added
      exact ⟨rfl, rfl, rfl⟩
  obtain ⟨objects, trace, timers⟩ := result
  refine ⟨⟨filed, fun timer present => ?_, fun timer present => ?_⟩, fits.1, objects, trace⟩
  · rw [timers]
    by_cases same : timer = add.timer
    · exact .inr (List.mem_map.mpr ⟨_, (members _).mpr (.inl rfl), same.symm⟩)
    · rw [objects, Function.update_of_ne same] at present
      refine (kept.complete timer present).imp_right fun inside => ?_
      obtain ⟨entry, among, rfl⟩ := List.mem_map.mp inside
      exact List.mem_map_of_mem ((members entry).mpr (.inr among))
  · by_cases same : timer = add.timer
    · exact same ▸ fits.2
    · rw [objects, Function.update_of_ne same] at present
      exact kept.addressed timer present

/-- What a callback adds is new, and what was there stays as it is. -/
theorem Kept.addTimers (kept : q.Kept held) {adds : List AddTimer}
    (returned : q.addTimers adds = .ok next) :
    next.Kept held ∧ next.trace = q.trace ∧
      (∀ add ∈ adds, q.objects add.timer = none) ∧
      ∀ timer object, q.objects timer = some object → next.objects timer = some object := by
  induction adds generalizing q with
  | nil =>
      cases returned
      exact ⟨kept, rfl, nofun, fun _ _ there => there⟩
  | cons add adds ih =>
      obtain ⟨middle, first, rest⟩ := (bind_ok_iff _ _ _).mp returned
      obtain ⟨kept, fresh, objects, trace⟩ := kept.addTimer first
      obtain ⟨kept, later, absent, stays⟩ := ih kept rest
      have onward : ∀ timer object, q.objects timer = some object →
          middle.objects timer = some object := by
        intro timer object there
        have differ : timer ≠ add.timer := by
          rintro rfl
          rw [fresh] at there
          cases there
        rw [objects, Function.update_of_ne differ]
        exact there
      refine ⟨kept, later.trans trace, List.forall_mem_cons.mpr ⟨fresh, fun other inside => ?_⟩,
        fun timer object there => stays timer object (onward timer object there)⟩
      have gone := absent other inside
      cases present : q.objects other.timer with
      | none => rfl
      | some object =>
          rw [onward _ object present] at gone
          cases gone

theorem Kept.emit (kept : q.Kept held) (effect : TimerEffect) : (q.emit effect).Kept held :=
  ⟨⟨kept.filed.sorted, kept.filed.keyed, kept.filed.live, kept.filed.apart⟩, kept.complete,
    kept.addressed⟩

/-- The first callback adds its timers before the others. -/
theorem flatten_take_succ (callbacks : List (List AddTimer)) (count : Nat) :
    (callbacks.take (count + 1)).flatten =
      callbacks.headD [] ++ (callbacks.tail.take count).flatten := by
  cases callbacks with
  | nil => simp
  | cons own others => simp

/-- The loop over the expired timers runs each of them, in order. -/
theorem Kept.runCallbacks (kept : q.Kept held) {expired : List Entry}
    {callbacks : List (List AddTimer)} (returned : q.runCallbacks expired callbacks = .ok next) :
    next.Kept held ∧
      next.trace = (expired.map fun entry => TimerEffect.run entry.timer).reverse ++ q.trace ∧
      (∀ add ∈ (callbacks.take expired.length).flatten, q.objects add.timer = none) ∧
      ∀ timer object, q.objects timer = some object → next.objects timer = some object := by
  induction expired generalizing q callbacks with
  | nil =>
      cases returned
      exact ⟨kept, rfl, by simp, fun _ _ there => there⟩
  | cons entry expired ih =>
      obtain ⟨object, -, called⟩ := (bind_ok_iff _ _ _).mp returned
      obtain ⟨middle, first, rest⟩ := (bind_ok_iff _ _ _).mp called
      obtain ⟨between, trace, fresh, onward⟩ := (kept.emit (.run entry.timer)).addTimers first
      obtain ⟨kept, later, absent, stays⟩ := ih between rest
      refine ⟨kept, ?_, ?_, fun timer object there =>
        stays timer object (onward timer object there)⟩
      · rw [later, trace]
        simp [TimerQueue.emit]
      · rw [List.length_cons, flatten_take_succ]
        intro add inside
        rcases List.mem_append.mp inside with own | other
        · exact fresh add own
        · have gone := absent add other
          cases present : q.objects add.timer with
          | none => rfl
          | some object =>
              rw [onward _ object present] at gone
              cases gone

/-- What becomes of the timer at an address when it is disposed of: a repeating timer gets a
later expiration, a one-shot timer is deleted. -/
def Disposed (timer : Nat) (before after : Option Timer) (effects : List TimerEffect) : Prop :=
  ∃ object, before = some object ∧
    if object.repeats then (∃ now, after = some (object.restart now)) ∧ effects = []
    else after = none ∧ effects = [.delete timer]

theorem Disposed.effects {timer : Nat} {before after : Option Timer}
    {effects : List TimerEffect} (disposed : Disposed timer before after effects) :
    effects = [] ∨ effects = [.delete timer] := by
  obtain ⟨object, -, result⟩ := disposed
  split at result
  · exact .inl result.2
  · exact .inr result.2

/-- One turn of the loop of `reset` concerns one address. -/
theorem Kept.restartOrDelete {timer : Nat} (kept : q.Kept (timer :: held)) {now : Int}
    (returned : q.restartOrDelete timer now = .ok next) :
    next.Kept held ∧ (∀ other, other ≠ timer → next.objects other = q.objects other) ∧
      ∃ effects, next.trace = effects ++ q.trace ∧
        Disposed timer (q.objects timer) (next.objects timer) effects := by
  obtain ⟨result, taken, filed⟩ := restartOrDelete_filed kept.filed now
  obtain rfl : next = result := Except.ok.inj (returned.symm.trans taken)
  obtain ⟨object, there⟩ := kept.filed.live timer List.mem_cons_self
  simp only [TimerQueue.restartOrDelete, object_eq_ok there, bind, Except.bind] at returned
  split at returned
  · rename_i repeats
    have restarted : Function.update q.objects timer (some (object.restart now)) timer =
        some (object.restart now) := Function.update_self ..
    obtain ⟨entries, changed, inserted, -, members, -⟩ :=
      insert_filed (kept.filed.replace (object.restart now)) restarted
    rw [inserted] at returned
    cases returned
    refine ⟨⟨filed, fun other present => ?_, fun other present => ?_⟩, fun other differ =>
      Function.update_of_ne differ _ _, [], rfl, object, there, ?_⟩
    · by_cases same : other = timer
      · exact .inr (List.mem_map.mpr ⟨_, (members _).mpr (.inl rfl), same.symm⟩)
      · simp only [Function.update_of_ne same] at present
        refine (kept.complete other present).imp
          (fun inside => (List.mem_cons.mp inside).resolve_left same) fun inside => ?_
        obtain ⟨entry, among, rfl⟩ := List.mem_map.mp inside
        exact List.mem_map_of_mem ((members entry).mpr (.inr among))
    · by_cases same : other = timer
      · exact same ▸ kept.addressed timer (by simp [there])
      · simp only [Function.update_of_ne same] at present
        exact kept.addressed other present
    · rw [if_pos repeats]
      exact ⟨⟨now, restarted⟩, rfl⟩
  · rename_i once
    cases returned
    have gone : Function.update q.objects timer none timer = none := Function.update_self ..
    refine ⟨⟨filed, fun other present => ?_, fun other present => ?_⟩, fun other differ =>
      Function.update_of_ne differ _ _, [.delete timer], rfl, object, there, ?_⟩
    · have differ : other ≠ timer := by
        rintro rfl
        exact present gone
      simp only [TimerQueue.emit, Function.update_of_ne differ] at present
      exact (kept.complete other present).imp_left
        fun inside => (List.mem_cons.mp inside).resolve_left differ
    · have differ : other ≠ timer := by
        rintro rfl
        exact present gone
      simp only [TimerQueue.emit, Function.update_of_ne differ] at present
      exact kept.addressed other present
    · rw [if_neg once]
      exact ⟨gone, rfl⟩

theorem Kept.rearm (kept : q.Kept held) {now : Int} (returned : q.rearm now = .ok next) :
    next.Kept held ∧ next.objects = q.objects ∧ next.trace = q.trace := by
  obtain ⟨result, taken, filed, -⟩ := rearm_armed kept.filed now
  obtain rfl : next = result := Except.ok.inj (returned.symm.trans taken)
  unfold TimerQueue.rearm at returned
  split at returned
  · cases returned
    exact ⟨kept, rfl, rfl⟩
  · obtain ⟨object, -, armed⟩ := (bind_ok_iff _ _ _).mp returned
    cases armed
    exact ⟨⟨filed, kept.complete, kept.addressed⟩, rfl, rfl⟩

/-- The loop of `reset` disposes of each expired timer and of no other. -/
theorem Kept.reset {expired : List Entry} (kept : q.Kept (expired.map Entry.timer))
    {readings : List ResetReadings} (returned : q.reset expired readings = .ok next) :
    next.Kept [] ∧ ∃ effects, next.trace = effects ++ q.trace ∧
      (∀ effect ∈ effects, ∃ timer, effect = .delete timer) ∧
      ∀ timer, (timer ∈ expired.map Entry.timer →
          Disposed timer (q.objects timer) (next.objects timer)
            (effects.filter (·.timer = timer))) ∧
        (timer ∉ expired.map Entry.timer → next.objects timer = q.objects timer ∧
          effects.filter (·.timer = timer) = []) := by
  induction expired generalizing q readings with
  | nil =>
      cases returned
      exact ⟨kept, [], rfl, nofun, fun timer => ⟨nofun, fun _ => ⟨rfl, rfl⟩⟩⟩
  | cons entry expired ih =>
      obtain ⟨middle, first, rest⟩ := (bind_ok_iff _ _ _).mp returned
      obtain ⟨armed, second, rest⟩ := (bind_ok_iff _ _ _).mp rest
      have alone : entry.timer ∉ expired.map Entry.timer := by
        have apart := kept.filed.apart
        rw [List.map_cons, List.cons_append, List.nodup_cons, List.mem_append, not_or] at apart
        exact apart.1.1
      obtain ⟨kept, others, own, trace, disposed⟩ := kept.restartOrDelete first
      obtain ⟨kept, objects, same⟩ := kept.rearm second
      obtain ⟨kept, effects, later, deletes, each⟩ := ih kept rest
      rw [objects] at each
      have apart : ∀ timer, timer ≠ entry.timer → own.filter (·.timer = timer) = [] := by
        intro timer differ
        rcases disposed.effects with rfl | rfl
        · rfl
        · simp [TimerEffect.timer, differ.symm]
      have mine : own.filter (·.timer = entry.timer) = own := by
        rcases disposed.effects with rfl | rfl
        · rfl
        · simp [TimerEffect.timer]
      refine ⟨kept, effects ++ own, by rw [later, same, trace, List.append_assoc], ?_, ?_⟩
      · intro effect inside
        rcases List.mem_append.mp inside with older | newer
        · exact deletes effect older
        · rcases disposed.effects with rfl | rfl
          · exact absurd newer List.not_mem_nil
          · exact ⟨entry.timer, List.mem_singleton.mp newer⟩
      · intro timer
        rw [List.filter_append]
        by_cases here : timer = entry.timer
        · subst here
          obtain ⟨unchanged, none⟩ := (each entry.timer).2 alone
          refine ⟨fun _ => ?_, fun absent => absurd List.mem_cons_self absent⟩
          rw [none, mine, unchanged, List.nil_append]
          exact disposed
        · rw [apart timer here, List.append_nil, ← others timer here]
          have inside : timer ∈ (entry :: expired).map Entry.timer ↔
              timer ∈ expired.map Entry.timer := by
            rw [List.map_cons, List.mem_cons, or_iff_right here]
          rw [inside]
          exact each timer

theorem Kept.getExpired (kept : q.Kept []) (now : Int) :
    (q.getExpired now).2.Kept ((q.getExpired now).1.map Entry.timer) := by
  refine ⟨getExpired_filed kept.filed now, fun timer present => ?_, kept.addressed⟩
  have filed := (kept.complete timer present).resolve_left List.not_mem_nil
  have parts : (q.getExpired now).1 ++ (q.getExpired now).2.timers = q.timers :=
    List.takeWhile_append_dropWhile
  rwa [← parts, List.map_append, List.mem_append] at filed

/-- The sentry of `getExpired` cuts off the timers whose expiration the clock has reached: its
address is beyond that of every object. -/
theorem Kept.mem_expired_iff (kept : q.Kept []) (now : Int) (timer : Nat) :
    timer ∈ (q.getExpired now).1.map Entry.timer ↔
      ∃ object, q.objects timer = some object ∧ object.expiration ≤ now := by
  have cut : ∀ entry, entry ∈ (q.getExpired now).1 ↔
      entry ∈ q.timers ∧ entry.Before ⟨now, uintptrMax⟩ :=
    fun entry => OrderedSet.mem_takeWhile_iff kept.filed.sorted
  constructor
  · intro inside
    obtain ⟨entry, taken, rfl⟩ := List.mem_map.mp inside
    obtain ⟨filed, before⟩ := (cut entry).mp taken
    obtain ⟨object, there, keyed⟩ := kept.filed.keyed entry filed
    refine ⟨object, there, ?_⟩
    unfold Entry.Before at before
    dsimp only at before
    omega
  · rintro ⟨object, there, reached⟩
    have filed : timer ∈ q.timers.map Entry.timer :=
      (kept.complete timer (by simp [there])).resolve_left List.not_mem_nil
    obtain ⟨entry, among, rfl⟩ := List.mem_map.mp filed
    obtain ⟨other, same, keyed⟩ := kept.filed.keyed entry among
    obtain rfl : object = other := Option.some.inj (there.symm.trans same)
    have address := kept.addressed entry.timer (by simp [there])
    refine List.mem_map_of_mem ((cut entry).mpr ⟨among, ?_⟩)
    unfold Entry.Before
    dsimp only
    omega

/-- The expired timers come in the order of their expirations. -/
theorem Kept.expired_ordered (kept : q.Kept []) (now : Int) :
    ((q.getExpired now).1.map Entry.timer).Pairwise fun first second => ∀ one two,
      q.objects first = some one → q.objects second = some two →
        one.expiration ≤ two.expiration := by
  have front : (q.getExpired now).1.Sublist q.timers := List.takeWhile_sublist _
  rw [List.pairwise_map]
  refine (kept.filed.sorted.sublist front).imp_of_mem ?_
  intro first second inside later before one two there also
  obtain ⟨object, same, keyed⟩ := kept.filed.keyed first (front.mem inside)
  obtain ⟨other, alike, keyed'⟩ := kept.filed.keyed second (front.mem later)
  obtain rfl : one = object := Option.some.inj (there.symm.trans same)
  obtain rfl : two = other := Option.some.inj (also.symm.trans alike)
  unfold Entry.Before at before
  omega

theorem Kept.expired_nodup (kept : q.Kept []) (now : Int) :
    ((q.getExpired now).1.map Entry.timer).Nodup := by
  have apart := (getExpired_filed kept.filed now).apart
  rw [List.nodup_append] at apart
  exact apart.1

/-- Running the expired timers concerns each address at most once. -/
theorem filter_runs {expired : List Entry} (once : (expired.map Entry.timer).Nodup)
    (timer : Nat) :
    (expired.map fun entry => TimerEffect.run entry.timer).reverse.filter (·.timer = timer) =
      if timer ∈ expired.map Entry.timer then [.run timer] else [] := by
  have moved : (expired.map fun entry => TimerEffect.run entry.timer) =
      (expired.map Entry.timer).map TimerEffect.run := by simp
  have kept : ((expired.map Entry.timer).filter (· = timer)) =
      if timer ∈ expired.map Entry.timer then [timer] else [] := by
    rw [List.filter_eq, once.count]
    split <;> rfl
  rw [moved, List.filter_reverse, List.filter_map]
  change (((expired.map Entry.timer).filter (· = timer)).map TimerEffect.run).reverse = _
  rw [kept]
  split <;> rfl

/-- What a call of `handleRead` does: it runs the expired timers in order, and then it disposes
of them. -/
theorem Kept.handleRead (kept : q.Kept []) {now : Int} {callbacks : List (List AddTimer)}
    {readings : List ResetReadings} (returned : q.handleRead now callbacks readings = .ok next) :
    next.Kept [] ∧ ∃ middle deleted,
      (q.getExpired now).2.runCallbacks (q.getExpired now).1 callbacks = .ok middle ∧
      q.since next = deleted ++
        ((q.getExpired now).1.map fun entry => TimerEffect.run entry.timer).reverse ∧
      (∀ effect ∈ deleted, ∃ timer, effect = .delete timer) ∧
      ∀ timer, (timer ∈ (q.getExpired now).1.map Entry.timer →
          Disposed timer (middle.objects timer) (next.objects timer)
            (deleted.filter (·.timer = timer))) ∧
        (timer ∉ (q.getExpired now).1.map Entry.timer →
          next.objects timer = middle.objects timer ∧
            deleted.filter (·.timer = timer) = []) := by
  obtain ⟨middle, called, resets⟩ := (bind_ok_iff _ _ _).mp returned
  obtain ⟨between, trace, -, -⟩ := (kept.getExpired now).runCallbacks called
  obtain ⟨after, deleted, later, deletes, each⟩ := between.reset resets
  refine ⟨after, middle, deleted, called, since_of_trace ?_, deletes, each⟩
  rw [later, trace, List.append_assoc]
  rfl

theorem Kept.runsExpired (kept : q.Kept []) {now : Int} {callbacks : List (List AddTimer)}
    {readings : List ResetReadings} (returned : q.handleRead now callbacks readings = .ok next) :
    q.RunsExpired next now := by
  obtain ⟨-, middle, deleted, -, since, deletes, -⟩ := kept.handleRead returned
  have silent : deleted.reverse.filterMap (fun
      | .run timer => some timer
      | .delete _ => none) = ([] : List Nat) := by
    refine List.filterMap_eq_nil_iff.mpr fun effect inside => ?_
    obtain ⟨timer, rfl⟩ := deletes effect (List.mem_reverse.mp inside)
    rfl
  have runs : q.ran next = (q.getExpired now).1.map Entry.timer := by
    rw [ran, since, List.reverse_append, List.reverse_reverse, List.filterMap_append, silent,
      List.append_nil, List.filterMap_map]
    change (q.getExpired now).1.filterMap (some ∘ Entry.timer) = _
    rw [List.filterMap_eq_map]
  refine ⟨?_, ?_, ?_⟩
  · rw [runs]
    exact kept.mem_expired_iff now
  · rw [runs]
    exact kept.expired_nodup now
  · rw [runs]
    exact kept.expired_ordered now

end TimerQueue

namespace TimerHistory

open TimerQueue

variable {timer : Nat} {lives : List TimerLife} {held : List Nat} {q next : TimerQueue}

/-- What the lives at an address say about the object there. -/
def Accounts (timer : Nat) (lives : List TimerLife) (object : Option Timer) : Prop :=
  (∃ life past, lives = life :: past ∧ (∀ old ∈ past, old.Done timer) ∧
    if life.object.repeats then
      (∀ effect ∈ life.effects, effect = .run timer) ∧ ∃ current, object = some current ∧
        current.repeats = true ∧ current.delta = life.object.delta
    else life.effects = [] ∧ object = some life.object) ∨
  (∀ old ∈ lives, old.Done timer) ∧ object = none

@[simp] theorem prolong_nil (lives : List TimerLife) : prolong [] lives = lives := by
  cases lives <;> rfl

theorem born_append (first second : List AddTimer) (timer : Nat) :
    born (first ++ second) timer = born second timer ++ born first timer := by
  simp [born]

/-- No life begins at an address that no timer gets. -/
theorem born_of_absent {adds : List AddTimer} (absent : ∀ add ∈ adds, add.timer ≠ timer) :
    born adds timer = [] := by
  have none : adds.filter (·.timer = timer) = [] :=
    List.filter_eq_nil_iff.mpr fun add inside => by simp [absent add inside]
  rw [born, none]
  rfl

/-- A timer added at an address where there is none begins a life. -/
theorem Accounts.born (accounts : Accounts timer lives none) (object : Timer) :
    Accounts timer (⟨object, []⟩ :: lives) (some object) := by
  have past : ∀ old ∈ lives, old.Done timer := by
    rcases accounts with ⟨life, past, -, -, holds⟩ | ⟨done, -⟩
    · split at holds
      · obtain ⟨-, current, impossible, -⟩ := holds
        cases impossible
      · cases holds.2
    · exact done
  refine .inl ⟨_, lives, rfl, past, ?_⟩
  split
  · rename_i repeats
    exact ⟨nofun, object, rfl, repeats, rfl⟩
  · exact ⟨rfl, rfl⟩

theorem Accounts.addTimers (kept : q.Kept held) {adds : List AddTimer}
    (returned : q.addTimers adds = .ok next) (accounts : Accounts timer lives (q.objects timer)) :
    Accounts timer (TimerHistory.born adds timer ++ lives) (next.objects timer) := by
  induction adds generalizing q lives with
  | nil =>
      cases returned
      exact accounts
  | cons add adds ih =>
      obtain ⟨middle, first, rest⟩ := (bind_ok_iff _ _ _).mp returned
      obtain ⟨kept, fresh, objects, -⟩ := kept.addTimer first
      rw [← List.singleton_append, born_append, List.append_assoc]
      refine ih kept rest ?_
      rw [objects]
      by_cases same : add.timer = timer
      · subst same
        rw [fresh] at accounts
        simpa [TimerHistory.born] using accounts.born add.object
      · rw [born_of_absent (by simpa using same), Function.update_of_ne (Ne.symm same)]
        exact accounts

theorem Accounts.runCallbacks (kept : q.Kept held) {expired : List Entry}
    {callbacks : List (List AddTimer)} (returned : q.runCallbacks expired callbacks = .ok next)
    (accounts : Accounts timer lives (q.objects timer)) :
    Accounts timer (TimerHistory.born (callbacks.take expired.length).flatten timer ++ lives)
      (next.objects timer) := by
  induction expired generalizing q callbacks lives with
  | nil =>
      cases returned
      simpa [TimerHistory.born] using accounts
  | cons entry expired ih =>
      obtain ⟨object, -, called⟩ := (bind_ok_iff _ _ _).mp returned
      obtain ⟨middle, first, rest⟩ := (bind_ok_iff _ _ _).mp called
      have emitted := kept.emit (.run entry.timer)
      obtain ⟨between, -⟩ := emitted.addTimers first
      rw [List.length_cons, flatten_take_succ, born_append, List.append_assoc]
      exact ih between rest (accounts.addTimers emitted first)

/-- An expired timer is run, and deleted when it is a one-shot timer. -/
theorem Accounts.expire {effects : List TimerEffect} {before after : Option Timer}
    (accounts : Accounts timer lives before) (disposed : Disposed timer before after effects) :
    Accounts timer (prolong (effects ++ [.run timer]) lives) after := by
  obtain ⟨object, rfl, result⟩ := disposed
  rcases accounts with ⟨life, past, rfl, done, holds⟩ | ⟨-, impossible⟩
  · split at holds
    · rename_i repeats
      obtain ⟨runs, current, same, again, delta⟩ := holds
      obtain rfl : object = current := Option.some.inj same
      rw [if_pos again] at result
      obtain ⟨⟨now, later⟩, none⟩ := result
      refine .inl ⟨_, past, rfl, done, ?_⟩
      rw [if_pos repeats, none]
      refine ⟨?_, object.restart now, later, again, delta⟩
      intro effect inside
      rcases List.mem_cons.mp inside with own | earlier
      · exact own
      · exact runs effect earlier
    · rename_i once
      obtain ⟨nothing, same⟩ := holds
      obtain rfl : object = life.object := Option.some.inj same
      rw [if_neg once] at result
      obtain ⟨gone, deleted⟩ := result
      refine .inr ⟨List.forall_mem_cons.mpr ⟨⟨by simpa using once, ?_⟩, done⟩, gone⟩
      simp [nothing, deleted]
  · cases impossible

theorem Accounts.handleRead (kept : q.Kept []) {now : Int} {callbacks : List (List AddTimer)}
    {readings : List ResetReadings} (returned : q.handleRead now callbacks readings = .ok next)
    (accounts : Accounts timer lives (q.objects timer)) :
    Accounts timer (prolong ((q.since next).filter (·.timer = timer))
      (TimerHistory.born (q.added (.handleRead now callbacks readings)) timer ++ lives))
      (next.objects timer) := by
  obtain ⟨-, middle, deleted, called, since, -, each⟩ := kept.handleRead returned
  have taken := kept.getExpired now
  obtain ⟨-, -, fresh, stays⟩ := taken.runCallbacks called
  rw [since, List.filter_append, filter_runs (kept.expired_nodup now)]
  by_cases expired : timer ∈ (q.getExpired now).1.map Entry.timer
  · obtain ⟨object, there, -⟩ := (kept.mem_expired_iff now timer).mp expired
    have absent : TimerHistory.born (q.added (.handleRead now callbacks readings)) timer = [] := by
      refine born_of_absent fun add inside same => ?_
      have none : q.objects add.timer = none := fresh add inside
      rw [same, there] at none
      cases none
    have kept : middle.objects timer = q.objects timer :=
      (stays timer object there).trans there.symm
    have disposed := (each timer).1 expired
    rw [kept] at disposed
    rw [if_pos expired, absent, List.nil_append]
    exact accounts.expire disposed
  · obtain ⟨same, none⟩ := (each timer).2 expired
    rw [if_neg expired, none, List.append_nil, prolong_nil, same]
    exact accounts.runCallbacks taken called

/-- The queue is in order, and at each address the lives agree with the object. -/
structure Accounted (h : TimerHistory) : Prop where
  kept : h.queue.Kept []
  accounts : ∀ timer, Accounts timer (h.lives timer) (h.queue.objects timer)

theorem start_accounted : start.Accounted := ⟨kept_create, fun _ => .inr ⟨nofun, rfl⟩⟩

theorem Accounted.delivered {h : TimerHistory} (accounted : h.Accounted) : h.Delivered := by
  intro timer
  rcases accounted.accounts timer with ⟨life, past, same, done, holds⟩ | ⟨done, none⟩
  · refine .inl ⟨life, past, same, ?_, done⟩
    unfold TimerLife.Waiting
    split at holds
    · rename_i repeats
      obtain ⟨runs, current, there, again, delta⟩ := holds
      rw [if_pos repeats]
      exact ⟨runs, current, again, delta, accounted.kept.filedOnce there⟩
    · rename_i once
      rw [if_neg once]
      exact ⟨holds.1, accounted.kept.filedOnce holds.2⟩
  · exact .inr ⟨done, none, accounted.kept.unfiled none⟩

/-- What one call does to the queue and to each address. -/
theorem call_accounts {q next : TimerQueue} (kept : q.Kept []) {call : TimerCall}
    (returned : q.call call = .ok next) :
    next.Kept [] ∧
      (∀ timer lives, Accounts timer lives (q.objects timer) →
        Accounts timer (prolong ((q.since next).filter (·.timer = timer))
          (born (q.added call) timer ++ lives)) (next.objects timer)) ∧
      q.Runs next call := by
  cases call with
  | addTimer add =>
      obtain ⟨after, -, -, trace⟩ := kept.addTimer returned
      have nothing : q.since next = [] := since_of_trace trace
      refine ⟨after, fun timer lives accounts => ?_, nothing⟩
      rw [nothing, List.filter_nil, prolong_nil]
      have alone : q.addTimers [add] = .ok next :=
        (bind_ok_iff _ _ _).mpr ⟨next, returned, rfl⟩
      exact accounts.addTimers kept alone
  | handleRead now callbacks readings =>
      exact ⟨(kept.handleRead returned).1,
        fun timer lives accounts => accounts.handleRead kept returned, kept.runsExpired returned⟩

/-- The expiry of the descriptor, which precedes a call, touches no timer. -/
theorem expire_kept {q next : TimerQueue} (kept : q.Kept []) {fired : Bool}
    (returned : q.expire fired = .ok next) :
    next.Kept [] ∧ next.timers = q.timers ∧ next.objects = q.objects ∧ next.trace = q.trace := by
  unfold TimerQueue.expire at returned
  split at returned
  · obtain ⟨-, result⟩ := guard_ok returned
    cases result
    exact ⟨⟨⟨kept.filed.sorted, kept.filed.keyed, kept.filed.live, kept.filed.apart⟩,
      kept.complete, kept.addressed⟩, rfl, rfl, rfl⟩
  · cases returned
    exact ⟨kept, rfl, rfl, rfl⟩

/-- Only the objects and the trace matter to what has been run. -/
theorem runs_congr {q other next : TimerQueue} {call : TimerCall}
    (objects : other.objects = q.objects) (trace : other.trace = q.trace)
    (runs : other.Runs next call) : q.Runs next call := by
  have since : other.since next = q.since next := by rw [TimerQueue.since, trace, TimerQueue.since]
  cases call with
  | addTimer add => exact since.symm.trans runs
  | handleRead now callbacks readings =>
      have ran : other.ran next = q.ran next := by rw [TimerQueue.ran, since, TimerQueue.ran]
      obtain ⟨exactly, once, ordered⟩ := runs
      rw [ran, objects] at exactly ordered
      exact ⟨exactly, ran ▸ once, ordered⟩

theorem step_accounted {h next : TimerHistory} (accounted : h.Accounted) {event : TimerEvent}
    (taken : h.step event = .ok next) :
    next.Accounted ∧ h.queue.Runs next.queue event.call := by
  obtain ⟨queue, called, result⟩ := (bind_ok_iff _ _ _).mp taken
  obtain ⟨middle, expired, called⟩ := (bind_ok_iff _ _ _).mp called
  cases result
  obtain ⟨kept, timers, objects, trace⟩ := expire_kept accounted.kept expired
  obtain ⟨after, accounts, runs⟩ := call_accounts kept called
  have since : middle.since queue = h.queue.since queue := by rw [TimerQueue.since, trace,
    TimerQueue.since]
  have added : middle.added event.call = h.queue.added event.call := by
    cases event.call with
    | addTimer add => rfl
    | handleRead now callbacks readings => simp only [added, getExpired, timers]
  rw [since, added, objects] at accounts
  exact ⟨⟨after, fun timer => accounts timer _ (accounted.accounts timer)⟩,
    runs_congr objects trace runs⟩

/-- In every run of calls, callbacks that add timers included: each `handleRead` runs exactly
the timers whose expiration its clock has reached, each once and in the order of their
expirations; a one-shot timer is run once and then deleted once; and each timer that waits is
filed exactly once, under its current expiration. A call fails only where it is not
enabled. -/
theorem timers_delivered (events : List TimerEvent) (h : TimerHistory)
    (reached : run step start events = .ok h) (event : TimerEvent) :
    h.Delivered ∧ Spec (· = Fault.notEnabled)
      (fun next => next.Delivered ∧ h.queue.Runs next.queue event.call) (h.step event) := by
  have accounted : h.Accounted := Reachable.preserves Accounted
    (fun _ _ _ kept taken => (step_accounted kept taken).1) start_accounted ⟨events, reached⟩
  refine ⟨accounted.delivered, ?_⟩
  cases taken : h.step event with
  | ok next =>
      obtain ⟨after, runs⟩ := step_accounted accounted taken
      exact ⟨after.delivered, runs⟩
  | error fault =>
      have allowed := step_filed accounted.kept.filed event
      unfold step at taken
      cases result : h.queue.step event with
      | ok queue =>
          rw [result] at taken
          cases taken
      | error own =>
          rw [result] at taken
          cases taken
          exact allowed.of_error result

/-- A one-shot and a repeating timer due at the same time; the callback of the first adds a
timer that is due already. -/
theorem timers_delivered_sameTime :
    ∃ h, run step start
        [⟨false, .addTimer ⟨8, ⟨100, 0, false⟩, 0⟩⟩, ⟨false, .addTimer ⟨16, ⟨100, 50, true⟩, 10⟩⟩,
          ⟨true, .handleRead 110 [[⟨24, ⟨105, 0, false⟩, 110⟩]] [⟨111, 112⟩, ⟨113, 114⟩]⟩] = .ok h ∧
      h.queue.timers = [⟨105, 24⟩, ⟨163, 16⟩] ∧
      (h.lives 8).map TimerLife.effects = [[.delete 8, .run 8]] ∧
      h.Delivered ∧ Spec (· = Fault.notEnabled)
        (fun next => next.Delivered ∧
          h.queue.Runs next.queue (.handleRead 120 [] [⟨121, 122⟩]))
        (h.step ⟨true, .handleRead 120 [] [⟨121, 122⟩]⟩) := by
  obtain ⟨h, reached, facts⟩ := (map_ok_iff _ _ _).mp
    (show (run step start
        [⟨false, .addTimer ⟨8, ⟨100, 0, false⟩, 0⟩⟩, ⟨false, .addTimer ⟨16, ⟨100, 50, true⟩, 10⟩⟩,
          ⟨true, .handleRead 110 [[⟨24, ⟨105, 0, false⟩, 110⟩]] [⟨111, 112⟩, ⟨113, 114⟩]⟩]).map
      (fun h => (h.queue.timers, (h.lives 8).map TimerLife.effects)) =
        .ok ([⟨105, 24⟩, ⟨163, 16⟩], [[.delete 8, .run 8]]) by decide +kernel)
  obtain ⟨timers, effects⟩ := Prod.mk.inj facts
  exact ⟨h, reached, timers, effects, timers_delivered _ h reached _⟩

end TimerHistory

end KamaWebserver
