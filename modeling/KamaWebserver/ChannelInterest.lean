import KamaWebserver.PollerBookkeeping

set_option autoImplicit false

namespace KamaWebserver

open Outcome Transition

/-- A channel, and the poller of the loop that owns it. -/
structure WatchedChannel where
  poller : EPollPoller
  channel : Channel

/-- The public operations on the interest of a channel. -/
inductive ChannelOp
  | enableET
  | enableReading
  | disableReading
  | enableWriting
  | disableWriting
  | disableAll
  | remove
  deriving DecidableEq, Repr

namespace Channel

/-- Read or write interest; the edge-trigger flag is neither. -/
def Interested (ch : Channel) : Prop := ch.isReading ∨ ch.isWriting

instance (ch : Channel) : Decidable ch.Interested := by
  unfold Interested
  infer_instance

/-- Interest is a matter of the mask alone. -/
theorem interested_congr {ch other : Channel} (same : ch.events = other.events) :
    ch.Interested ↔ other.Interested := by
  simp only [Interested, isReading, isWriting, same]

/-- The edge-trigger flag is no interest. -/
theorem enableET_interested (ch : Channel) : ch.enableET.Interested ↔ ch.Interested := by
  have apart : EPOLLET.getLsbD 0 = false ∧ EPOLLET.getLsbD 1 = false ∧
      EPOLLET.getLsbD 2 = false := by decide
  obtain ⟨first, second, third⟩ := apart
  simp only [Interested, isReading_eq, isWriting_eq, enableET, BitVec.getLsbD_or, first, second,
    third, Bool.or_false]

end Channel

namespace WatchedChannel

/-- `Channel::update`, once the mask is set. -/
def update (w : WatchedChannel) (events : EventMask) : Except Fault WatchedChannel := do
  let (poller, channel) ← w.poller.updateChannel { w.channel with events }
  return { poller, channel }

def enableET (w : WatchedChannel) : WatchedChannel := { w with channel := w.channel.enableET }

def enableReading (w : WatchedChannel) : Except Fault WatchedChannel :=
  w.update (w.channel.events ||| kReadEvent)

def disableReading (w : WatchedChannel) : Except Fault WatchedChannel :=
  w.update (w.channel.events &&& ~~~kReadEvent)

def enableWriting (w : WatchedChannel) : Except Fault WatchedChannel :=
  w.update (w.channel.events ||| kWriteEvent)

def disableWriting (w : WatchedChannel) : Except Fault WatchedChannel :=
  w.update (w.channel.events &&& ~~~kWriteEvent)

def disableAll (w : WatchedChannel) : Except Fault WatchedChannel := w.update kNoneEvent

def remove (w : WatchedChannel) : Except Fault WatchedChannel := do
  let (poller, channel) ← w.poller.removeChannel w.channel
  return { poller, channel }

def step (w : WatchedChannel) : ChannelOp → Except Fault WatchedChannel
  | .enableET => .ok w.enableET
  | .enableReading => w.enableReading
  | .disableReading => w.disableReading
  | .enableWriting => w.enableWriting
  | .disableWriting => w.disableWriting
  | .disableAll => w.disableAll
  | .remove => w.remove

/-- epoll watches the descriptor only for a channel with read or write interest. -/
def Good (w : WatchedChannel) : Prop :=
  (w.poller.interest w.channel.fd).isSome → w.channel.Interested

end WatchedChannel

/-- The mask an operation hands to `update()`, for those that call it. -/
def ChannelOp.events? (events : EventMask) : ChannelOp → Option EventMask
  | .enableET => none
  | .enableReading => some (events ||| kReadEvent)
  | .disableReading => some (events &&& ~~~kReadEvent)
  | .enableWriting => some (events ||| kWriteEvent)
  | .disableWriting => some (events &&& ~~~kWriteEvent)
  | .disableAll => some kNoneEvent
  | .remove => none

/-- An update leaves a mask with read or write interest, or an empty one on a channel that is
kAdded. What remains are an empty mask on a channel that is kNew or kDeleted, and a mask of the
edge-trigger flag alone. -/
def ChannelOp.Guard (w : WatchedChannel) (op : ChannelOp) : Prop :=
  ∀ events ∈ op.events? w.channel.events,
    { w.channel with events }.Interested ∨ (w.channel.index = .kAdded ∧ events = kNoneEvent)

namespace WatchedChannel

variable {w next : WatchedChannel}

theorem step_of_events {op : ChannelOp} {events : EventMask}
    (updates : op.events? w.channel.events = some events) : w.step op = w.update events := by
  cases op with
  | enableET => cases updates
  | remove => cases updates
  | enableReading | disableReading | enableWriting | disableWriting | disableAll =>
      obtain rfl := Option.some.inj updates
      rfl

theorem update_spec (agrees : w.poller.Agrees w.channel) (events : EventMask) :
    ∃ next, w.update events = .ok next ∧ next.poller.Agrees next.channel ∧
      next.channel.events = events ∧
      next.channel.index = EPollPoller.nextIndex w.channel.index events := by
  have masked : w.poller.Agrees { w.channel with events } := agrees
  obtain ⟨poller, channel, updated, held, mask⟩ := EPollPoller.updateChannel_ok masked
  refine ⟨⟨poller, channel⟩, by simp only [update, updated]; rfl, held, mask, ?_⟩
  rw [EPollPoller.updateChannel_channel updated]

/-- An update leaves the descriptor in epoll unless it takes an added channel out. -/
theorem good_of_update (agrees : next.poller.Agrees next.channel) {events : EventMask}
    {index : PollerIndex} (indexed : next.channel.index = EPollPoller.nextIndex index events) :
    next.Good ↔ next.channel.Interested ∨ (index = .kAdded ∧ events = kNoneEvent) := by
  unfold EPollPoller.Agrees at agrees
  unfold Good
  rw [agrees, indexed, EPollPoller.nextIndex]
  by_cases emptied : index = .kAdded ∧ events = kNoneEvent
  · simp [emptied]
  · simp [emptied]

theorem remove_spec (agrees : w.poller.Agrees w.channel) :
    ∃ next, w.remove = .ok next ∧ next.poller.Agrees next.channel ∧ next.Good := by
  obtain ⟨poller, channel, removed, held, -⟩ := EPollPoller.removeChannel_ok agrees
  refine ⟨⟨poller, channel⟩, by simp only [remove, removed]; rfl, held, ?_⟩
  intro watched
  have added : channel.index = .kAdded := held.mp watched
  rw [EPollPoller.removeChannel_channel removed] at added
  cases added

/-- One operation succeeds, and its guard decides whether the channel is watched in vain. -/
theorem step_spec (agrees : w.poller.Agrees w.channel) (good : w.Good) (op : ChannelOp) :
    ∃ next, w.step op = .ok next ∧ next.poller.Agrees next.channel ∧
      (next.Good ↔ op.Guard w) := by
  cases updates : op.events? w.channel.events with
  | some events =>
      obtain ⟨next, updated, held, mask, indexed⟩ := update_spec agrees events
      refine ⟨next, (step_of_events updates).trans updated, held, ?_⟩
      have same : next.channel.Interested ↔ { w.channel with events }.Interested :=
        Channel.interested_congr mask
      rw [good_of_update held indexed, same]
      simp [ChannelOp.Guard, updates]
  | none =>
      have guarded : op.Guard w := by simp [ChannelOp.Guard, updates]
      cases op with
      | enableET =>
          refine ⟨w.enableET, rfl, agrees, iff_of_true ?_ guarded⟩
          exact fun watched => w.channel.enableET_interested.mpr (good watched)
      | remove =>
          obtain ⟨next, removed, held, fine⟩ := remove_spec agrees
          exact ⟨next, removed, held, iff_of_true fine guarded⟩
      | enableReading | disableReading | enableWriting | disableWriting | disableAll =>
          cases updates

/-- A new channel stays unwatched while it has no interest exactly in the runs that never update
it to an empty mask while it is kNew or kDeleted, nor to the edge-trigger flag alone. -/
theorem watched_iff_guarded (p : EPollPoller) (self fd : Nat) (unknown : p.interest fd = none)
    (ops : List ChannelOp) :
    Always step Good (fun _ => False) ⟨p, .create self fd⟩ ops ↔
      Guarded step (fun w op => op.Guard w) ⟨p, .create self fd⟩ ops := by
  have agrees : p.Agrees (.create self fd) := by
    simp [EPollPoller.Agrees, Channel.create, unknown]
  have good : Good ⟨p, .create self fd⟩ := by simp [Good, Channel.create, unknown]
  refine always_iff_guarded (fun w : WatchedChannel => w.poller.Agrees w.channel ∧ w.Good)
    (fun w inv => inv.2) ?_ ?_ ?_ ?_ ⟨agrees, good⟩ ops
  · intro w op next inv guarded taken
    obtain ⟨after, stepped, held, decides⟩ := step_spec inv.1 inv.2 op
    obtain rfl : after = next := Except.ok.inj (stepped.symm.trans taken)
    exact ⟨held, decides.mpr guarded⟩
  · intro w op fault inv _ taken
    obtain ⟨after, stepped, -⟩ := step_spec inv.1 inv.2 op
    cases stepped.symm.trans taken
  · intro w op next inv unguarded taken
    obtain ⟨after, stepped, -, decides⟩ := step_spec inv.1 inv.2 op
    obtain rfl : after = next := Except.ok.inj (stepped.symm.trans taken)
    exact fun fine => unguarded (decides.mp fine)
  · intro w op fault inv _ taken
    obtain ⟨after, stepped, -⟩ := step_spec inv.1 inv.2 op
    cases stepped.symm.trans taken

/-- Read interest given and taken back once, then the channel removed. -/
theorem watched_iff_guarded_readAndRemove :
    Always step Good (fun _ => False) ⟨.create, .create 1 5⟩
        [.enableET, .enableReading, .disableAll, .remove] ↔
      Guarded step (fun w op => op.Guard w) ⟨.create, .create 1 5⟩
        [.enableET, .enableReading, .disableAll, .remove] :=
  watched_iff_guarded .create 1 5 rfl _

/-- The second of two `disableAll` puts the descriptor back into epoll, with an empty mask. -/
theorem disabledTwice_watched :
    ¬ Always step Good (fun _ => False) ⟨.create, .create 1 5⟩
      [.enableReading, .disableAll, .disableAll] := by
  intro always
  have reached : run step ⟨.create, .create 1 5⟩ [.enableReading, .disableAll, .disableAll] =
      .ok ⟨_, ⟨1, 5, kNoneEvent, .kAdded⟩⟩ := rfl
  have good := always.target reached
  exact absurd (good rfl) (by decide)

end WatchedChannel

end KamaWebserver
