import KamaWebserver.Library.Transition
import KamaWebserver.PollerRegistration

set_option autoImplicit false

namespace KamaWebserver

open Outcome Transition

namespace EPollPoller

/-- The operation of the one `epoll_ctl` an `updateChannel` makes. -/
def updateOperation (ch : Channel) : EpollOp :=
  match ch.index with
  | .kNew | .kDeleted => .ctlAdd
  | .kAdded => if ch.isNoneEvent then .ctlDel else .ctlMod

/-- The operation of the `epoll_ctl` a `removeChannel` makes, if it makes one. -/
def removeOperation (ch : Channel) : Option EpollOp :=
  if ch.index = .kAdded then some .ctlDel else none

/-- `channels_[fd] = channel`, for a channel that is new. -/
def record (p : EPollPoller) (ch : Channel) : EPollPoller :=
  if ch.index = .kNew then { p with channels := Function.update p.channels ch.fd (some ch.self) }
  else p

/-- `channels_.erase(fd)`. -/
def forget (p : EPollPoller) (ch : Channel) : EPollPoller :=
  { p with channels := Function.update p.channels ch.fd none }

/-- How many of the `epoll_ctl` calls made fail. -/
def failed (p : EPollPoller) (operation : EpollOp) (ch : Channel) : Nat :=
  if (p.epollCtl operation ch).isSome then 0 else 1

theorem updateChannel_eq (p : EPollPoller) (ch : Channel) :
    p.updateChannel ch = ((p.record ch).update (updateOperation ch) ch).map
      (·, { ch with index := nextIndex ch.index ch.events }) := by
  obtain ⟨self, fd, events, index⟩ := ch
  cases index with
  | kNew => rfl
  | kDeleted => rfl
  | kAdded =>
      by_cases none : events = kNoneEvent
      · subst none
        rfl
      · simp only [updateChannel, updateOperation, record, nextIndex, Channel.isNoneEvent,
          beq_eq_false_iff_ne.mpr none, none, and_false, ↓reduceIte]
        rfl

theorem removeChannel_eq (p : EPollPoller) (ch : Channel) :
    p.removeChannel ch =
      (match removeOperation ch with
        | some operation => (p.forget ch).update operation ch
        | none => .ok (p.forget ch)).map
        (·, { ch with index := .kNew }) := by
  unfold removeChannel removeOperation
  by_cases added : ch.index = .kAdded
  · simp only [added, ↓reduceIte]
    rfl
  · simp only [added, ↓reduceIte]
    rfl

variable {p : EPollPoller} {ch : Channel}

/-- An update writes `index_` and nothing else of the channel. -/
theorem updateChannel_channel {after : EPollPoller} {next : Channel}
    (updated : p.updateChannel ch = .ok (after, next)) :
    next = { ch with index := nextIndex ch.index ch.events } := by
  rw [updateChannel_eq, map_ok_iff] at updated
  obtain ⟨_, -, made⟩ := updated
  exact (congrArg Prod.snd made).symm

theorem removeChannel_channel {after : EPollPoller} {next : Channel}
    (removed : p.removeChannel ch = .ok (after, next)) : next = { ch with index := .kNew } := by
  rw [removeChannel_eq, map_ok_iff] at removed
  obtain ⟨_, -, made⟩ := removed
  exact (congrArg Prod.snd made).symm

theorem Registered.agrees (registered : p.Registered ch) : p.Agrees ch := by
  unfold Agrees
  rw [registered.interest]
  split <;> simp_all

theorem failed_eq_zero (p : EPollPoller) (ch : Channel) {operation : EpollOp}
    (matching : (p.interest ch.fd).isSome ↔ operation ≠ .ctlAdd) : p.failed operation ch = 0 := by
  obtain ⟨after, done, -⟩ := epollCtl_ok p ch operation matching
  simp [failed, done]

/-- An update adds exactly what is not in epoll. -/
theorem updateOperation_ne_ctlAdd (ch : Channel) :
    updateOperation ch ≠ .ctlAdd ↔ ch.index = .kAdded := by
  unfold updateOperation
  cases ch.index with
  | kNew => simp
  | kDeleted => simp
  | kAdded =>
      by_cases none : ch.isNoneEvent
      · simp [none]
      · simp [none]

theorem updateOperation_succeeds (registered : p.Registered ch) (events : EventMask) :
    (p.record { ch with events }).failed (updateOperation { ch with events })
      { ch with events } = 0 := by
  have recorded : (p.record { ch with events }).interest = p.interest := by
    unfold record
    split <;> rfl
  apply failed_eq_zero
  rw [updateOperation_ne_ctlAdd, recorded]
  exact registered.agrees

theorem removeOperation_succeeds (registered : p.Registered ch) (events : EventMask)
    {operation : EpollOp} (makes : removeOperation { ch with events } = some operation) :
    (p.forget { ch with events }).failed operation { ch with events } = 0 := by
  have agrees := registered.agrees
  unfold removeOperation at makes
  by_cases added : ch.index = .kAdded
  · obtain rfl : EpollOp.ctlDel = operation := by simpa [added] using makes
    apply failed_eq_zero
    simpa [forget, Agrees, added] using agrees
  · simp [added] at makes

end EPollPoller

/-- A poller and the channels whose updates and removals go to it. `failures` counts the calls
of `epoll_ctl` that have failed. -/
structure PollerRun (ι : Type) where
  poller : EPollPoller
  channels : ι → Channel
  failures : Nat

/-- A call for a channel, with the mask its `events_` holds by then. -/
inductive PollerEvent (ι : Type)
  | updateChannel (channel : ι) (events : EventMask)
  | removeChannel (channel : ι) (events : EventMask)

namespace PollerRun

variable {ι : Type}

/-- Channels that are not yet in the poller. -/
def start (self fd : ι → Nat) : PollerRun ι :=
  ⟨.create, fun channel => .create (self channel) (fd channel), 0⟩

/-- No `epoll_ctl` has failed, and the kernel's set and `channels_` hold of each channel what
its index says. -/
structure Bookkept (s : PollerRun ι) : Prop where
  failures : s.failures = 0
  interest : ∀ channel, (s.poller.interest (s.channels channel).fd).isSome ↔
    (s.channels channel).index = .kAdded
  channels : ∀ channel, s.poller.channels (s.channels channel).fd =
      some (s.channels channel).self ↔
    (s.channels channel).index = .kAdded ∨ (s.channels channel).index = .kDeleted

/-- Each descriptor belongs to one channel, which the poller knows as its index says. -/
structure Tracked (s : PollerRun ι) : Prop where
  distinct : Function.Injective fun channel => (s.channels channel).fd
  registered : ∀ channel, s.poller.Registered (s.channels channel)
  failures : s.failures = 0

variable {s : PollerRun ι}

theorem Tracked.bookkept (tracked : s.Tracked) : s.Bookkept := by
  refine ⟨tracked.failures, fun channel => (tracked.registered channel).agrees, fun channel => ?_⟩
  rw [(tracked.registered channel).channels]
  cases (s.channels channel).index <;> simp

theorem start_tracked (self : ι → Nat) {fd : ι → Nat} (distinct : Function.Injective fd) :
    (start self fd).Tracked :=
  ⟨distinct, fun _ => ⟨rfl, rfl⟩, rfl⟩

variable [DecidableEq ι]

/-- `failures` counts the call of `epoll_ctl` beside the update that makes it: by
`updateChannel_eq` and `removeChannel_eq` the operation, the poller and the channel are those
of the call. -/
def step (s : PollerRun ι) : PollerEvent ι → Except Fault (PollerRun ι)
  | .updateChannel channel events => do
      let ch := { s.channels channel with events }
      let (poller, after) ← s.poller.updateChannel ch
      return ⟨poller, Function.update s.channels channel after,
        s.failures + (s.poller.record ch).failed (EPollPoller.updateOperation ch) ch⟩
  | .removeChannel channel events => do
      let ch := { s.channels channel with events }
      let (poller, after) ← s.poller.removeChannel ch
      return ⟨poller, Function.update s.channels channel after,
        s.failures +
          match EPollPoller.removeOperation ch with
          | some operation => (s.poller.forget ch).failed operation ch
          | none => 0⟩

/-- A call for one channel moves no other. -/
theorem Tracked.at (tracked : s.Tracked) (channel : ι) {poller : EPollPoller} {after : Channel}
    {failures : Nat} (registered : poller.Registered after)
    (only : s.poller.OnlyAt (s.channels channel).fd poller)
    (fd : after.fd = (s.channels channel).fd) (succeeds : failures = 0) :
    Tracked ⟨poller, Function.update s.channels channel after, failures⟩ := by
  have fds : ∀ other, (Function.update s.channels channel after other).fd =
      (s.channels other).fd := by
    intro other
    by_cases same : other = channel
    · subst same
      rw [Function.update_self, fd]
    · rw [Function.update_of_ne same]
  refine ⟨fun one two same => tracked.distinct ?_, fun other => ?_, succeeds⟩
  · simpa only [fds] using same
  · by_cases same : other = channel
    · subst same
      simpa only [Function.update_self] using registered
    · simp only [Function.update_of_ne same]
      exact (tracked.registered other).onlyAt only fun equal => same (tracked.distinct equal)

theorem step_tracked (tracked : s.Tracked) (event : PollerEvent ι) :
    ∃ after, s.step event = .ok after ∧ after.Tracked := by
  cases event with
  | updateChannel channel events =>
      obtain ⟨poller, updated, registered, only⟩ :=
        EPollPoller.updateChannel_registered (tracked.registered channel) events
      have succeeds := EPollPoller.updateOperation_succeeds (tracked.registered channel) events
      refine ⟨_, ?_, tracked.at channel registered only rfl tracked.failures⟩
      simp only [step, updated, succeeds]
      rfl
  | removeChannel channel events =>
      obtain ⟨poller, removed, registered, only⟩ :=
        EPollPoller.removeChannel_registered (tracked.registered channel) events
      refine ⟨_, ?_, tracked.at channel registered only rfl tracked.failures⟩
      simp only [step, removed]
      cases makes : EPollPoller.removeOperation { s.channels channel with events } with
      | none => rfl
      | some operation =>
          simp only [EPollPoller.removeOperation_succeeds (tracked.registered channel) events makes]
          rfl

/-- For channels with distinct descriptors, in every order of calls with any masks, no
`epoll_ctl` fails and the three records stay in step. -/
theorem records_in_step (self fd : ι → Nat) (distinct : Function.Injective fd)
    (events : List (PollerEvent ι)) :
    Always step Bookkept (fun _ => False) (start self fd) events := by
  refine always_of_guarded Tracked (fun _ tracked => tracked.bookkept) ?_
    (start_tracked self distinct) (guarded_true _ events)
  intro s event tracked _
  obtain ⟨after, taken, kept⟩ := step_tracked tracked event
  rw [taken]
  exact kept

/-- Two channels, the first of which is disabled twice and then removed. -/
theorem records_in_step_disabledTwice :
    Always step Bookkept (fun _ => False) (start id (· + 5))
      [.updateChannel 0 kReadEvent, .updateChannel 1 kReadEvent, .updateChannel 0 kNoneEvent,
        .updateChannel 0 kNoneEvent, .removeChannel 0 kWriteEvent] :=
  records_in_step id (· + 5) (fun _ _ same => Nat.add_right_cancel same) _

end PollerRun

end KamaWebserver
