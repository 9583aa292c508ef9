import KamaWebserver.PollerRegistration
import KamaWebserver.TcpServer

set_option autoImplicit false

namespace KamaWebserver

open Outcome

namespace TcpConnection

/-- How often the close callback has been called. -/
def closeCallbacks (c : TcpConnection) : Nat := c.trace.count .closeCallback

/-- A connection that has sent nothing: no write interest, sound buffers, and a poller that
knows its channel. -/
structure Ready (c : TcpConnection) : Prop where
  registered : c.poller.Registered c.channel
  writing : c.channel.isWriting = false
  input : c.inputBuffer.Valid
  output : c.outputBuffer.Valid

/-- `after` is ready again, is the same channel, and the poller differs at its descriptor only. -/
structure Serves (c after : TcpConnection) : Prop where
  ready : after.Ready
  onlyAt : c.poller.OnlyAt c.channel.fd after.poller
  fd : after.channel.fd = c.channel.fd
  self : after.channel.self = c.channel.self

variable {c : TcpConnection}

theorem Ready.serves (ready : c.Ready) : c.Serves c :=
  ⟨ready, ⟨fun _ _ => rfl, fun _ _ => rfl⟩, rfl, rfl⟩

theorem Serves.emit {after : TcpConnection} (serves : c.Serves after) (effect : Effect) :
    c.Serves (after.emit effect) :=
  ⟨⟨serves.ready.registered, serves.ready.writing, serves.ready.input, serves.ready.output⟩,
    serves.onlyAt, serves.fd, serves.self⟩

/-- An interest operation that leaves writing off. -/
theorem updateEvents_serves (ready : c.Ready) (events : EventMask)
    (silent : events.getLsbD 2 = false) :
    ∃ after, c.updateEvents events = .ok after ∧ c.Serves after ∧ after.state = c.state ∧
      after.channel.index = EPollPoller.nextIndex c.channel.index events ∧
      after.trace = c.trace := by
  obtain ⟨poller, updated, registered, onlyAt⟩ :=
    EPollPoller.updateChannel_registered ready.registered events
  refine ⟨{ c with poller, channel := { c.channel with
      events, index := EPollPoller.nextIndex c.channel.index events } }, ?_,
    ⟨⟨registered, ?_, ready.input, ready.output⟩, onlyAt, rfl, rfl⟩, rfl, rfl, rfl⟩
  · simp only [updateEvents, updated, bind, Except.bind, pure, Except.pure]
  · rw [Channel.isWriting_eq]
    exact silent

theorem connectEstablished_serves (ready : c.Ready) (new : c.channel.index = .kNew) :
    ∃ after, c.connectEstablished = .ok after ∧ c.Serves after ∧
      after.channel.index = .kAdded ∧ after.closeCallbacks = c.closeCallbacks := by
  have ready' : (c.setState .kConnected).enableET.Ready := by
    refine ⟨⟨ready.registered.channels, ?_⟩, ?_, ready.input, ready.output⟩
    · have interest := ready.registered.interest
      simpa [setState, enableET, Channel.enableET, new] using interest
    · have writing := ready.writing
      rw [Channel.isWriting_eq] at writing ⊢
      simpa [setState, enableET, Channel.enableET, EPOLLET] using writing
  have silent : ((c.setState .kConnected).enableET.channel.events ||| kReadEvent).getLsbD 2 =
      false := by
    have writing := ready'.writing
    rw [Channel.isWriting_eq] at writing
    simpa [kReadEvent, EPOLLIN, EPOLLPRI] using writing
  obtain ⟨quiet, updated, served, -, index, trace⟩ := updateEvents_serves ready' _ silent
  have serves : c.Serves quiet := ⟨served.ready, served.onlyAt, served.fd, served.self⟩
  refine ⟨quiet.emit (.connectionCallback quiet.connected), ?_, serves.emit _, ?_, ?_⟩
  · simp only [connectEstablished, enableReading, updated]
    rfl
  · simpa [emit, EPollPoller.nextIndex, setState, enableET, Channel.enableET, new] using index
  · simp [closeCallbacks, emit, trace, setState, enableET]

/-- A callback that closes nothing leaves the channel as it was. -/
structure Stays (c after : TcpConnection) : Prop where
  serves : c.Serves after
  channel : after.channel = c.channel
  state : after.state = c.state
  closeCallbacks : after.closeCallbacks = c.closeCallbacks

/-- A callback that closes calls the close callback once. -/
structure Closes (c after : TcpConnection) : Prop where
  serves : c.Serves after
  state : after.state = .kDisconnected
  registered : after.channel.index ≠ .kNew
  closeCallbacks : after.closeCallbacks = c.closeCallbacks + 1

theorem handleClose_closes (ready : c.Ready) :
    ∃ after, c.handleClose = .ok after ∧ c.Closes after := by
  have ready' : (c.setState .kDisconnected).Ready :=
    ⟨ready.registered, ready.writing, ready.input, ready.output⟩
  obtain ⟨quiet, updated, served, state, index, trace⟩ :=
    updateEvents_serves ready' kNoneEvent (by decide)
  have serves : c.Serves quiet := ⟨served.ready, served.onlyAt, served.fd, served.self⟩
  refine ⟨(quiet.emit (.connectionCallback quiet.connected)).emit .closeCallback, ?_,
    (serves.emit _).emit _, state, ?_, ?_⟩
  · simp only [handleClose, disconnect, disableAll, updated]
    rfl
  · rw [show ((quiet.emit (.connectionCallback quiet.connected)).emit
      .closeCallback).channel.index = quiet.channel.index from rfl, index]
    exact EPollPoller.nextIndex_ne_kNew _ _
  · simp [closeCallbacks, emit, trace, setState]

/-- Of a connection that is down only the channel is left to be removed. -/
theorem connectDestroyed_serves (ready : c.Ready) (down : c.state = .kDisconnected) :
    ∃ after, c.connectDestroyed = .ok after ∧ c.Serves after ∧ after.state = .kDisconnected ∧
      after.channel.index = .kNew ∧ after.closeCallbacks = c.closeCallbacks := by
  obtain ⟨poller, removed, registered, onlyAt⟩ :=
    EPollPoller.removeChannel_registered ready.registered c.channel.events
  refine ⟨{ c with poller, channel := { c.channel with index := .kNew } }, ?_,
    ⟨⟨registered, ready.writing, ready.input, ready.output⟩, onlyAt, rfl, rfl⟩, down, rfl, rfl⟩
  simp [connectDestroyed, removeChannel, down, removed, bind, Except.bind, pure, Except.pure]

theorem readOnce_spec (ready : c.Ready) (result : ReadResult) :
    Spec Buffer.Throws (fun after => c.Stays after.1 ∨ c.Closes after.1)
      (c.readOnce result) := by
  unfold readOnce
  apply (Buffer.readFd_spec ready.input result).bind
  rintro ⟨inputBuffer, outcome⟩ ⟨valid, -⟩
  have ready' : Ready { c with inputBuffer } :=
    ⟨ready.registered, ready.writing, valid, ready.output⟩
  have stays : c.Stays { c with inputBuffer } :=
    ⟨⟨ready', ⟨fun _ _ => rfl, fun _ _ => rfl⟩, rfl, rfl⟩, rfl, rfl, rfl⟩
  obtain ⟨after, closed, ⟨served, state, registered, counted⟩⟩ := handleClose_closes ready'
  have closes : c.Closes after :=
    ⟨⟨served.ready, served.onlyAt, served.fd, served.self⟩, state, registered, counted⟩
  have ended : Spec Buffer.Throws (fun after => c.Stays after.1 ∨ c.Closes after.1)
      ((handleClose { c with inputBuffer }).map (·, false)) := by
    rw [closed]
    exact .inr closes
  cases outcome with
  | count n =>
      cases n with
      | zero => exact ended
      | succ n =>
          refine .inl ⟨⟨⟨ready'.registered, ready'.writing, valid, ready'.output⟩,
            ⟨fun _ _ => rfl, fun _ _ => rfl⟩, rfl, rfl⟩, rfl, rfl, ?_⟩
          simp [closeCallbacks, emit]
  | error errno =>
      cases errno with
      | EAGAIN => exact .inl stays
      | EPIPE => exact ended
      | ECONNRESET => exact ended
      | other code => exact ended

/-- Each callback of a channel either leaves it or closes the connection. -/
theorem run_spec (ready : c.Ready) (handler : Handler) (read : ReadResult)
    (writes : List IoResult) :
    Spec Buffer.Throws (fun after => c.Stays after.1 ∨ c.Closes after.1)
      (handler.run read writes c) := by
  obtain ⟨after, closed, closes⟩ := handleClose_closes ready
  cases handler with
  | close =>
      simp only [Handler.run, closed]
      exact .inr closes
  | error =>
      simp only [Handler.run, handleError, closed]
      exact .inr closes
  | read => exact readOnce_spec ready read
  | write =>
      simp only [Handler.run, handleWrite, ready.writing]
      exact .inl ⟨ready.serves, rfl, rfl, rfl⟩

end TcpConnection

end KamaWebserver
