import KamaWebserver.Library.Transition
import KamaWebserver.TimerQueue
import Mathlib.Data.List.TakeWhile

set_option autoImplicit false

namespace KamaWebserver

open Outcome Transition

theorem Arming.delay_pos (arming : Arming) : 0 < arming.delay := by
  unfold delay
  split <;> omega

namespace Entry

instance : IsTrans Entry Before where
  trans first second third one two := by
    unfold Before at *
    omega

theorem before_total {first second : Entry} (differ : first.timer ≠ second.timer) :
    first.Before second ∨ second.Before first := by
  unfold Before
  omega

end Entry

/-- A call from outside; a callback's calls of `addTimer` are part of `handleRead`. -/
inductive TimerCall
  | addTimer (add : AddTimer)
  | handleRead (now : Int) (callbacks : List (List AddTimer)) (readings : List ResetReadings)

/-- A call, and whether the armed descriptor has expired before it. -/
structure TimerEvent where
  fired : Bool
  call : TimerCall

namespace TimerQueue

/-- The descriptor is armed for one expiration only. -/
def expire (q : TimerQueue) (fired : Bool) : Except Fault TimerQueue :=
  if fired then
    if q.timerfd.isSome then .ok { q with timerfd := none } else .error .notEnabled
  else .ok q

def call (q : TimerQueue) : TimerCall → Except Fault TimerQueue
  | .addTimer add => q.addTimer add
  | .handleRead now callbacks readings => q.handleRead now callbacks readings

def step (q : TimerQueue) (event : TimerEvent) : Except Fault TimerQueue := do
  let q ← q.expire event.fired
  q.call event.call

/-- The descriptor is armed, for a delay computed from the earliest expiration there is. -/
def Armed (q : TimerQueue) : Prop :=
  q.timers ≠ [] → ∃ arming, q.timerfd = some arming ∧ 0 < arming.delay ∧
    (∃ entry ∈ q.timers, arming.expiration = entry.expiration) ∧
    ∀ entry ∈ q.timers, arming.expiration ≤ entry.expiration

/-- A call that comes after the descriptor has expired arms it again: a new timer is earlier
than all others, and `handleRead` finds an expired timer unless there is none at all. -/
def FindsWork (q : TimerQueue) (event : TimerEvent) : Prop :=
  event.fired = true →
    match event.call with
    | .addTimer add => ∀ entry ∈ q.timers, add.object.expiration < entry.expiration
    | .handleRead now _ _ => q.timers = [] ∨ ∃ entry ∈ q.timers, isExpired now entry = true

instance (q : TimerQueue) : ∀ event, Decidable (q.FindsWork event)
  | ⟨fired, .addTimer add⟩ => inferInstanceAs (Decidable (fired = true →
      ∀ entry ∈ q.timers, add.object.expiration < entry.expiration))
  | ⟨fired, .handleRead now _ _⟩ => inferInstanceAs (Decidable (fired = true →
      q.timers = [] ∨ ∃ entry ∈ q.timers, isExpired now entry = true))

/-- The entries are in order and filed under their objects' expirations; `held` are the timers
taken out of the set that are still to be restarted or deleted. No object has two holders. -/
structure Filed (held : List Nat) (q : TimerQueue) : Prop where
  sorted : q.timers.Pairwise Entry.Before
  keyed : ∀ entry ∈ q.timers, ∃ object, q.objects entry.timer = some object ∧
    object.expiration = entry.expiration
  live : ∀ timer ∈ held, ∃ object, q.objects timer = some object
  apart : (held ++ q.timers.map Entry.timer).Nodup

variable {held : List Nat} {q next : TimerQueue}

theorem filed_create : create.Filed [] :=
  ⟨List.Pairwise.nil, by simp [create], by simp, by simp [create]⟩

theorem object_eq_ok {timer : Nat} {object : Timer} (there : q.objects timer = some object) :
    q.object timer = .ok object := by
  simp only [TimerQueue.object, there]

/-- Filing a timer that is held, the flag says whether it comes before all that are filed. -/
theorem insert_filed {timer : Nat} {object : Timer} (filed : q.Filed (timer :: held))
    (there : q.objects timer = some object) :
    ∃ entries changed, q.insert timer = .ok ({ q with timers := entries }, changed) ∧
      Filed held { q with timers := entries } ∧
      (∀ entry, entry ∈ entries ↔ entry = ⟨object.expiration, timer⟩ ∨ entry ∈ q.timers) ∧
      (changed = true ↔ ∀ entry ∈ q.timers, object.expiration < entry.expiration) := by
  have alone := filed.apart
  rw [List.cons_append, List.nodup_cons, List.mem_append, not_or] at alone
  have differ : ∀ other ∈ q.timers, timer ≠ other.timer := fun other inside same =>
    alone.1.2 (same ▸ List.mem_map_of_mem inside)
  have added : (OrderedSet.insert Entry.Before ⟨object.expiration, timer⟩ q.timers).Perm
      (⟨object.expiration, timer⟩ :: q.timers) :=
    OrderedSet.insert_perm (fun other inside => Entry.before_total (differ other inside))
  refine ⟨_, _, by simp only [insert, object_eq_ok there]; rfl, ⟨?_, ?_, ?_, ?_⟩, ?_, ?_⟩
  · exact OrderedSet.insert_sorted filed.sorted
  · intro entry inside
    rcases List.mem_cons.mp (added.mem_iff.mp inside) with rfl | filedBefore
    · exact ⟨object, there, rfl⟩
    · exact filed.keyed entry filedBefore
  · exact fun other inside => filed.live other (List.mem_cons_of_mem timer inside)
  · have moved : (held ++ (OrderedSet.insert Entry.Before ⟨object.expiration, timer⟩
        q.timers).map Entry.timer).Perm (timer :: (held ++ q.timers.map Entry.timer)) :=
      ((added.map Entry.timer).append_left held).trans List.perm_middle
    exact moved.nodup_iff.mpr filed.apart
  · intro entry
    rw [added.mem_iff, List.mem_cons]
  · cases contents : q.timers with
    | nil => simp
    | cons first rest =>
        have head : q.timers.head? = some first := by rw [contents, List.head?_cons]
        simp only [decide_eq_true_eq]
        refine ⟨fun earlier entry inside => ?_, fun earlier => earlier first List.mem_cons_self⟩
        rcases OrderedSet.head_least filed.sorted head (contents ▸ inside) with rfl | before
        · exact earlier
        · unfold Entry.Before at before
          omega

theorem Filed.hold {timer : Nat} (filed : q.Filed held) (fresh : q.objects timer = none)
    (object : Timer) :
    Filed (timer :: held) { q with objects := Function.update q.objects timer (some object) } := by
  have unheld : timer ∉ held := fun inside => by
    obtain ⟨other, there⟩ := filed.live timer inside
    simp [fresh] at there
  have unfiled : timer ∉ q.timers.map Entry.timer := fun inside => by
    obtain ⟨entry, among, rfl⟩ := List.mem_map.mp inside
    obtain ⟨other, there, _⟩ := filed.keyed entry among
    simp [fresh] at there
  refine ⟨filed.sorted, fun entry inside => ?_, fun other inside => ?_, ?_⟩
  · have differ : entry.timer ≠ timer := fun same => unfiled (same ▸ List.mem_map_of_mem inside)
    simpa only [Function.update_of_ne differ] using filed.keyed entry inside
  · by_cases same : other = timer
    · exact ⟨object, by simp [same]⟩
    · simpa only [Function.update_of_ne same] using
        filed.live other ((List.mem_cons.mp inside).resolve_left same)
  · rw [List.cons_append, List.nodup_cons, List.mem_append]
    exact ⟨fun inside => inside.elim unheld unfiled, filed.apart⟩

/-- What is done to the object of a held timer leaves the entries alone. -/
theorem Filed.release {timer : Nat} (filed : q.Filed (timer :: held)) (object : Option Timer) :
    Filed held { q with objects := Function.update q.objects timer object } := by
  have alone := filed.apart
  rw [List.cons_append, List.nodup_cons, List.mem_append, not_or] at alone
  refine ⟨filed.sorted, fun entry inside => ?_, fun other inside => ?_, alone.2⟩
  · have differ : entry.timer ≠ timer := fun same => alone.1.2 (same ▸ List.mem_map_of_mem inside)
    simpa only [Function.update_of_ne differ] using filed.keyed entry inside
  · have differ : other ≠ timer := fun same => alone.1.1 (same ▸ inside)
    simpa only [Function.update_of_ne differ] using
      filed.live other (List.mem_cons_of_mem timer inside)

/-- A held timer may change. -/
theorem Filed.replace {timer : Nat} (filed : q.Filed (timer :: held)) (object : Timer) :
    Filed (timer :: held) { q with objects := Function.update q.objects timer (some object) } := by
  refine ⟨filed.sorted, (filed.release _).keyed, fun other inside => ?_, filed.apart⟩
  by_cases same : other = timer
  · exact ⟨object, by simp [same]⟩
  · simpa only [Function.update_of_ne same] using filed.live other inside

theorem addTimer_spec (filed : q.Filed held) (add : AddTimer) :
    Spec (· = Fault.notEnabled) (fun next => Filed held next ∧ (q.Armed → next.Armed) ∧
      (q.timerfd = none →
        (next.Armed ↔ ∀ entry ∈ q.timers, add.object.expiration < entry.expiration)))
      (q.addTimer add) := by
  unfold addTimer
  split
  case isFalse _ => rfl
  case isTrue fits =>
    have holds := filed.hold fits.1 add.object
    have there : Function.update q.objects add.timer (some add.object) add.timer =
        some add.object := Function.update_self ..
    obtain ⟨entries, changed, inserted, kept, members, earliest⟩ := insert_filed holds there
    simp only [addTimerInLoop, inserted, bind, Except.bind, object, there]
    have new : ⟨add.object.expiration, add.timer⟩ ∈ entries := (members _).mpr (.inl rfl)
    cases changed with
    | true =>
        have first := earliest.mp rfl
        have armed : Armed (resetTimerfd ⟨entries, Function.update q.objects add.timer
            (some add.object), q.timerfd, q.trace⟩ add.object.expiration add.now) := by
          refine fun _ => ⟨_, rfl, Arming.delay_pos _, ⟨_, new, rfl⟩, fun entry inside => ?_⟩
          rcases (members entry).mp inside with rfl | older
          · exact Int.le_refl _
          · exact Int.le_of_lt (first entry older)
        exact ⟨⟨kept.sorted, kept.keyed, kept.live, kept.apart⟩, fun _ => armed,
          fun _ => ⟨fun _ => first, fun _ => armed⟩⟩
    | false =>
        have late : ¬ ∀ entry ∈ q.timers, add.object.expiration < entry.expiration :=
          fun first => Bool.noConfusion (earliest.mpr first)
        refine ⟨kept, fun armed _ => ?_, fun unarmed => iff_of_false (fun armed => ?_) late⟩
        · obtain ⟨older, among, before⟩ :
              ∃ older ∈ q.timers, ¬ add.object.expiration < older.expiration := by
            simpa only [not_forall, exists_prop] using late
          obtain ⟨arming, set, positive, ⟨entry, inside, same⟩, least⟩ :=
            armed (List.ne_nil_of_mem among)
          refine ⟨arming, set, positive, ⟨entry, (members entry).mpr (.inr inside), same⟩, ?_⟩
          intro other present
          rcases (members other).mp present with rfl | filedBefore
          · exact Int.le_trans (least older among) (Int.not_lt.mp before)
          · exact least other filedBefore
        · obtain ⟨arming, set, _⟩ := armed (List.ne_nil_of_mem new)
          simp [unarmed] at set

theorem addTimers_spec (filed : q.Filed held) (adds : List AddTimer) :
    Spec (· = Fault.notEnabled) (Filed held) (q.addTimers adds) := by
  induction adds generalizing q with
  | nil => exact filed
  | cons add adds ih =>
      exact (addTimer_spec filed add).bind (fun next kept => ih kept.1)

theorem runCallbacks_spec (filed : q.Filed held) (expired : List Entry)
    (callbacks : List (List AddTimer)) (inside : ∀ entry ∈ expired, entry.timer ∈ held) :
    Spec (· = Fault.notEnabled) (Filed held) (q.runCallbacks expired callbacks) := by
  induction expired generalizing q callbacks with
  | nil => exact filed
  | cons entry expired ih =>
      obtain ⟨object, there⟩ := filed.live entry.timer (inside entry List.mem_cons_self)
      have kept : Filed held (q.emit (.run entry.timer)) :=
        ⟨filed.sorted, filed.keyed, filed.live, filed.apart⟩
      simp only [runCallbacks, object_eq_ok there]
      exact (addTimers_spec kept _).bind (fun next kept => ih kept _
        (fun other later => inside other (List.mem_cons_of_mem entry later)))

theorem restartOrDelete_filed {timer : Nat} (filed : q.Filed (timer :: held)) (now : Int) :
    ∃ next, q.restartOrDelete timer now = .ok next ∧ Filed held next := by
  obtain ⟨object, there⟩ := filed.live timer List.mem_cons_self
  simp only [restartOrDelete, object_eq_ok there, bind, Except.bind]
  split
  · have there : Function.update q.objects timer (some (object.restart now)) timer =
        some (object.restart now) := Function.update_self ..
    obtain ⟨entries, changed, inserted, kept, _⟩ :=
      insert_filed (filed.replace (object.restart now)) there
    rw [inserted]
    exact ⟨_, rfl, kept⟩
  · have kept := filed.release none
    exact ⟨_, rfl, kept.sorted, kept.keyed, kept.live, kept.apart⟩

/-- After `rearm` the descriptor is armed for the first timer. -/
theorem rearm_armed (filed : q.Filed held) (now : Int) :
    ∃ next, q.rearm now = .ok next ∧ Filed held next ∧ next.Armed := by
  unfold rearm
  split
  case h_1 empty => exact ⟨q, rfl, filed, fun timers => absurd empty timers⟩
  case h_2 first rest contents =>
    have among : first ∈ q.timers := contents ▸ List.mem_cons_self
    obtain ⟨object, there, same⟩ := filed.keyed first among
    rw [object_eq_ok there]
    refine ⟨_, rfl, ⟨filed.sorted, filed.keyed, filed.live, filed.apart⟩, fun _ =>
      ⟨_, rfl, Arming.delay_pos _, ⟨first, among, same⟩, fun entry inside => ?_⟩⟩
    have head : q.timers.head? = some first := by rw [contents, List.head?_cons]
    rcases OrderedSet.head_least filed.sorted head inside with rfl | before
    · exact Int.le_of_eq same
    · dsimp only
      unfold Entry.Before at before
      omega

theorem reset_filed (expired : List Entry) (filed : q.Filed (expired.map Entry.timer))
    (readings : List ResetReadings) :
    ∃ next, q.reset expired readings = .ok next ∧ Filed [] next ∧
      (expired ≠ [] ∨ q.Armed → next.Armed) := by
  induction expired generalizing q readings with
  | nil => exact ⟨q, rfl, filed, fun armed => armed.resolve_left (fun some => some rfl)⟩
  | cons entry expired ih =>
      obtain ⟨middle, restarted, kept⟩ :=
        restartOrDelete_filed filed (readings.headD ⟨0, 0⟩).restart
      obtain ⟨next, rearmed, filed, armed⟩ := rearm_armed kept (readings.headD ⟨0, 0⟩).arm
      obtain ⟨last, resets, filed, stays⟩ := ih filed readings.tail
      refine ⟨last, ?_, filed, fun _ => stays (.inr armed)⟩
      simp only [reset, restarted, rearmed, bind, Except.bind, resets]

theorem getExpired_filed (filed : q.Filed []) (now : Int) :
    Filed ((q.getExpired now).1.map Entry.timer) (q.getExpired now).2 := by
  have parts : q.timers.takeWhile (isExpired now) ++ q.timers.dropWhile (isExpired now) =
      q.timers := List.takeWhile_append_dropWhile
  refine ⟨filed.sorted.sublist (List.dropWhile_sublist _), fun entry inside => ?_,
    fun timer inside => ?_, ?_⟩
  · exact filed.keyed entry ((List.dropWhile_sublist _).mem inside)
  · obtain ⟨entry, among, rfl⟩ := List.mem_map.mp inside
    obtain ⟨object, there, _⟩ := filed.keyed entry ((List.takeWhile_sublist _).mem among)
    exact ⟨object, there⟩
  · simpa only [getExpired, ← List.map_append, parts, List.nil_append] using filed.apart

/-- The set is in order, so the first timer has expired when any has. -/
theorem getExpired_ne_nil_iff (filed : q.Filed held) (now : Int) :
    (q.getExpired now).1 ≠ [] ↔ ∃ entry ∈ q.timers, isExpired now entry = true := by
  constructor
  · intro found
    obtain ⟨entry, inside⟩ := List.exists_mem_of_ne_nil _ found
    exact ⟨entry, (List.takeWhile_sublist _).mem inside, List.mem_takeWhile_imp inside⟩
  · rintro ⟨entry, inside, expired⟩
    obtain ⟨first, rest, contents⟩ := List.exists_cons_of_ne_nil (List.ne_nil_of_mem inside)
    have head : q.timers.head? = some first := by rw [contents, List.head?_cons]
    have below : isExpired now first = true := decide_eq_true
      (OrderedSet.below_of_mem filed.sorted head inside (of_decide_eq_true expired))
    simp [getExpired, contents, below]

theorem handleRead_spec (filed : q.Filed []) (now : Int) (callbacks : List (List AddTimer))
    (readings : List ResetReadings) :
    Spec (· = Fault.notEnabled) (fun next => Filed [] next ∧
      ((∃ entry ∈ q.timers, isExpired now entry = true) → next.Armed) ∧
      ((¬ ∃ entry ∈ q.timers, isExpired now entry = true) → next = q))
      (q.handleRead now callbacks readings) := by
  have taken := getExpired_filed filed now
  have parts := List.takeWhile_append_dropWhile (p := isExpired now) (l := q.timers)
  rw [← getExpired_ne_nil_iff filed now]
  simp only [handleRead, getExpired] at taken ⊢
  refine Spec.bind_of_ok (runCallbacks_spec taken _ callbacks
    (fun entry inside => List.mem_map_of_mem inside)) (fun middle ran kept => ?_)
  obtain ⟨next, resets, filed, armed⟩ := reset_filed _ kept readings
  rw [resets]
  refine ⟨filed, fun found => armed (.inl found), fun none => ?_⟩
  rw [not_not] at none
  rw [none, List.nil_append] at parts
  simp only [none, parts, runCallbacks, reset, Except.ok.injEq] at ran resets
  exact resets.symm.trans ran.symm

/-- A call keeps the set and its objects in step, and fails only where it is not enabled. -/
theorem step_filed (filed : q.Filed []) (event : TimerEvent) :
    Spec (· = Fault.notEnabled) (Filed []) (q.step event) := by
  have expired : Spec (· = Fault.notEnabled) (Filed []) (q.expire event.fired) := by
    unfold expire
    split
    · split
      · exact ⟨filed.sorted, filed.keyed, filed.live, filed.apart⟩
      · rfl
    · exact filed
  refine expired.bind (fun middle kept => ?_)
  cases event.call with
  | addTimer add => exact (addTimer_spec kept add).mono (fun _ result => result.1)
  | handleRead now callbacks readings =>
      exact (handleRead_spec kept now callbacks readings).mono (fun _ result => result.1)

/-- Until the descriptor expires a call leaves it armed. -/
theorem call_armed (filed : q.Filed []) (armed : q.Armed) (call : TimerCall)
    (taken : q.call call = .ok next) : next.Armed := by
  cases call with
  | addTimer add => exact ((addTimer_spec filed add).of_ok taken).2.1 armed
  | handleRead now callbacks readings =>
      obtain ⟨_, found, idle⟩ := (handleRead_spec filed now callbacks readings).of_ok taken
      by_cases some : ∃ entry ∈ q.timers, isExpired now entry = true
      · exact found some
      · exact idle some ▸ armed

/-- Once it has expired the call leaves it armed exactly when it finds work. -/
theorem call_armed_iff (filed : q.Filed []) (unarmed : q.timerfd = none) (call : TimerCall)
    (taken : q.call call = .ok next) : next.Armed ↔ q.FindsWork ⟨true, call⟩ := by
  simp only [FindsWork, forall_const]
  cases call with
  | addTimer add => exact ((addTimer_spec filed add).of_ok taken).2.2 unarmed
  | handleRead now callbacks readings =>
      obtain ⟨_, found, idle⟩ := (handleRead_spec filed now callbacks readings).of_ok taken
      by_cases some : ∃ entry ∈ q.timers, isExpired now entry = true
      · exact iff_of_true (found some) (.inr some)
      · have none : next.Armed ↔ q.timers = [] := by
          rw [idle some]
          constructor
          · intro armed
            by_contra timers
            obtain ⟨arming, set, _⟩ := armed timers
            simp [unarmed] at set
          · exact fun empty timers => absurd empty timers
        rw [none]
        exact ⟨.inl, fun either => either.resolve_right some⟩

theorem step_armed_iff (filed : q.Filed []) (armed : q.Armed) (event : TimerEvent)
    (taken : q.step event = .ok next) : next.Armed ↔ q.FindsWork event := by
  obtain ⟨fired, call⟩ := event
  obtain ⟨middle, expired, called⟩ := (bind_ok_iff _ _ _).mp taken
  cases fired with
  | false =>
      obtain rfl : q = middle := by simpa [expire] using expired
      exact iff_of_true (call_armed filed armed call called) (fun fired => by simp at fired)
  | true =>
      simp only [if_true, expire] at expired
      split at expired
      · obtain rfl := Except.ok.inj expired
        exact call_armed_iff (q := { q with timerfd := none })
          ⟨filed.sorted, filed.keyed, filed.live, filed.apart⟩ rfl call called
      · simp at expired

/-- After every call of a run a non-empty set has its descriptor armed for the earliest
expiration, exactly when every call that comes after the descriptor has expired finds work. -/
theorem always_armed_iff (events : List TimerEvent) (q : TimerQueue)
    (reached : run step create events = .ok q) :
    Always step Armed (fun _ => True) create events ↔ Guarded step FindsWork create events :=
  always_iff_guarded_of_run (Filed []) Armed
    (fun _ event _ filed taken => (step_filed filed event).of_ok taken)
    (fun _ event _ filed armed taken => step_armed_iff filed armed event taken)
    filed_create (fun timers => absurd rfl timers) reached

/-- A run of calls never touches a timer that has been deleted. -/
theorem run_live (events : List TimerEvent) :
    Always step (Filed []) (· = Fault.notEnabled) create events :=
  always_of_guarded (Filed []) (fun _ filed => filed)
    (fun _ event filed _ => step_filed filed event) filed_create (guarded_true create events)

/-- A repeating timer due at 100 and a later one-shot timer; the descriptor expires at 110. -/
theorem always_armed_iff_repeating :
    Always step Armed (fun _ => True) create
      [⟨false, .addTimer ⟨8, ⟨100, 50, true⟩, 0⟩⟩, ⟨false, .addTimer ⟨16, ⟨130, 0, false⟩, 10⟩⟩,
        ⟨true, .handleRead 110 [] [⟨111, 112⟩]⟩] := by
  obtain ⟨q, reached, _⟩ := (map_ok_iff _ _ _).mp
    (show (run step create
      [⟨false, .addTimer ⟨8, ⟨100, 50, true⟩, 0⟩⟩, ⟨false, .addTimer ⟨16, ⟨130, 0, false⟩, 10⟩⟩,
        ⟨true, .handleRead 110 [] [⟨111, 112⟩]⟩]).map (fun q => q.timers.length) = .ok 2 by
      decide +kernel)
  exact (always_armed_iff _ q reached).mpr (by decide +kernel)

/-- The descriptor for a timer due at 1000 expires while the wall clock, set back meanwhile,
shows 900: nothing is run and nothing arms the descriptor again. -/
theorem earlyFiring_not_armed :
    ∃ q, run step create [⟨false, .addTimer ⟨8, ⟨1000, 0, false⟩, 500⟩⟩,
        ⟨true, .handleRead 900 [] []⟩] = .ok q ∧
      q.timers = [⟨1000, 8⟩] ∧ q.timerfd = none ∧ ¬ q.Armed := by
  obtain ⟨q, reached, fact⟩ := (map_ok_iff _ _ _).mp
    (show (run step create [⟨false, .addTimer ⟨8, ⟨1000, 0, false⟩, 500⟩⟩,
        ⟨true, .handleRead 900 [] []⟩]).map (fun q => (q.timers, q.timerfd)) =
      .ok ([⟨1000, 8⟩], none) by decide +kernel)
  obtain ⟨timers, timerfd⟩ := Prod.mk.inj fact
  refine ⟨q, reached, timers, timerfd, fun armed => ?_⟩
  obtain ⟨arming, set, _⟩ := armed (by simp [timers])
  simp [timerfd] at set

end TimerQueue

end KamaWebserver
