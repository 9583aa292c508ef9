import KamaWebserver.EPollPoller

set_option autoImplicit false

namespace KamaWebserver.EPollPoller

/-- `channels_` and epoll know of the channel what its index says: nothing for kNew, the
pointer alone for kDeleted, and for kAdded that epoll watches its events. -/
structure Registered (p : EPollPoller) (ch : Channel) : Prop where
  channels : p.channels ch.fd = if ch.index = .kNew then none else some ch.self
  interest : p.interest ch.fd = if ch.index = .kAdded then some (ch.events, ch.self) else none

/-- Other descriptors are left alone. -/
structure OnlyAt (p : EPollPoller) (fd : Nat) (after : EPollPoller) : Prop where
  channels : ∀ other ≠ fd, after.channels other = p.channels other
  interest : ∀ other ≠ fd, after.interest other = p.interest other

/-- `index_` after an update. -/
def nextIndex (index : PollerIndex) (events : EventMask) : PollerIndex :=
  if index = .kAdded ∧ events = kNoneEvent then .kDeleted else .kAdded

variable {p : EPollPoller} {ch : Channel}

theorem nextIndex_ne_kNew (index : PollerIndex) (events : EventMask) :
    nextIndex index events ≠ .kNew := by
  unfold nextIndex
  split <;> simp

/-- What happens at another descriptor does not concern the channel. -/
theorem Registered.onlyAt {after : EPollPoller} {fd : Nat} (registered : p.Registered ch)
    (only : p.OnlyAt fd after) (differ : ch.fd ≠ fd) : after.Registered ch where
  channels := (only.channels ch.fd differ).trans registered.channels
  interest := (only.interest ch.fd differ).trans registered.interest

/-- An update succeeds, and the poller knows the channel afterwards as before. -/
theorem updateChannel_registered (registered : p.Registered ch) (events : EventMask) :
    ∃ after, p.updateChannel { ch with events } =
        .ok (after, { ch with events, index := nextIndex ch.index events }) ∧
      after.Registered { ch with events, index := nextIndex ch.index events } ∧
      p.OnlyAt ch.fd after := by
  obtain ⟨channels, interest⟩ := registered
  unfold updateChannel
  cases index : ch.index with
  | kNew =>
      have unwatched : p.interest ch.fd = none := by simpa [index] using interest
      refine ⟨⟨Function.update p.channels ch.fd (some ch.self),
        Function.update p.interest ch.fd (some (events, ch.self))⟩, ?_, ?_, ?_⟩
      · simp [update, epollCtl, unwatched, nextIndex, Bind.bind, Except.bind, Pure.pure,
          Except.pure]
      · exact ⟨by simp [nextIndex], by simp [nextIndex]⟩
      · exact ⟨fun other differ => Function.update_of_ne differ _ _,
          fun other differ => Function.update_of_ne differ _ _⟩
  | kDeleted =>
      have unwatched : p.interest ch.fd = none := by simpa [index] using interest
      have known : p.channels ch.fd = some ch.self := by simpa [index] using channels
      refine ⟨⟨p.channels, Function.update p.interest ch.fd (some (events, ch.self))⟩, ?_, ?_, ?_⟩
      · simp [update, epollCtl, unwatched, nextIndex, Bind.bind, Except.bind, Pure.pure,
          Except.pure]
      · exact ⟨by simp [nextIndex, known], by simp [nextIndex]⟩
      · exact ⟨fun other _ => rfl, fun other differ => Function.update_of_ne differ _ _⟩
  | kAdded =>
      have watched : p.interest ch.fd = some (ch.events, ch.self) := by simpa [index] using interest
      have known : p.channels ch.fd = some ch.self := by simpa [index] using channels
      by_cases none : events = kNoneEvent
      · refine ⟨⟨p.channels, Function.update p.interest ch.fd Option.none⟩, ?_, ?_, ?_⟩
        · simp [Channel.isNoneEvent, none, update, epollCtl, watched, nextIndex, Bind.bind,
            Except.bind, Pure.pure, Except.pure]
        · exact ⟨by simp [nextIndex, none, known], by simp [nextIndex, none]⟩
        · exact ⟨fun other _ => rfl, fun other differ => Function.update_of_ne differ _ _⟩
      · refine ⟨⟨p.channels, Function.update p.interest ch.fd (some (events, ch.self))⟩, ?_, ?_, ?_⟩
        · simp [Channel.isNoneEvent, none, update, epollCtl, watched, nextIndex, Bind.bind,
            Except.bind, Pure.pure, Except.pure, ← index]
        · exact ⟨by simp [nextIndex, none, known], by simp [nextIndex, none]⟩
        · exact ⟨fun other _ => rfl, fun other differ => Function.update_of_ne differ _ _⟩

theorem removeChannel_registered (registered : p.Registered ch) (events : EventMask) :
    ∃ after, p.removeChannel { ch with events } = .ok (after, { ch with events, index := .kNew }) ∧
      after.Registered { ch with events, index := .kNew } ∧ p.OnlyAt ch.fd after := by
  obtain ⟨channels, interest⟩ := registered
  unfold removeChannel
  by_cases added : ch.index = .kAdded
  · have watched : p.interest ch.fd = some (ch.events, ch.self) := by simpa [added] using interest
    refine ⟨⟨Function.update p.channels ch.fd none, Function.update p.interest ch.fd none⟩,
      ?_, ?_, ?_⟩
    · simp [added, update, epollCtl, watched, Bind.bind, Except.bind, Pure.pure, Except.pure]
    · exact ⟨by simp, by simp⟩
    · exact ⟨fun other differ => Function.update_of_ne differ _ _,
        fun other differ => Function.update_of_ne differ _ _⟩
  · have unwatched : p.interest ch.fd = none := by simpa [added] using interest
    refine ⟨⟨Function.update p.channels ch.fd none, p.interest⟩, ?_, ?_, ?_⟩
    · simp [added, Bind.bind, Except.bind, Pure.pure, Except.pure]
    · exact ⟨by simp, by simp [unwatched]⟩
    · exact ⟨fun other differ => Function.update_of_ne differ _ _, fun other _ => rfl⟩

end KamaWebserver.EPollPoller
