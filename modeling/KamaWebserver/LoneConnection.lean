import KamaWebserver.ServerConnection

set_option autoImplicit false

namespace KamaWebserver

open Outcome

namespace EPollPoller

/-- What a poller knows of one descriptor. -/
def only (p : EPollPoller) (fd : Nat) : EPollPoller :=
  ⟨Function.update (fun _ => none) fd (p.channels fd),
    Function.update (fun _ => none) fd (p.interest fd)⟩

variable {p after : EPollPoller} {ch : Channel}

theorem only_congr {fd : Nat} (channels : after.channels fd = p.channels fd)
    (interest : after.interest fd = p.interest fd) : after.only fd = p.only fd := by
  rw [only, channels, interest, only]

theorem only_vacant {fd : Nat} (channels : p.channels fd = none) (interest : p.interest fd = none) :
    p.only fd = create := by
  simp only [only, channels, interest, create, EPollPoller.mk.injEq]
  exact ⟨Function.update_eq_self .., Function.update_eq_self ..⟩

/-- An operation on a descriptor neither reads nor writes what is known of others. -/
theorem update_only (p : EPollPoller) (ch : Channel) (operation : EpollOp) :
    Related (fun after lone => lone = after.only ch.fd) (p.update operation ch)
      ((p.only ch.fd).update operation ch) := by
  unfold update epollCtl
  cases operation with
  | ctlAdd | ctlMod | ctlDel =>
      cases watched : p.interest ch.fd with
      | none => simp [only, watched, Related]
      | some entry => simp [only, watched, Related]

theorem setChannels_only (value : Option Nat) :
    EPollPoller.only { p with channels := Function.update p.channels ch.fd value } ch.fd =
      { p.only ch.fd with channels := Function.update (p.only ch.fd).channels ch.fd value } := by
  simp [only]

/-- The poller of one descriptor has done the same for its channel. -/
structure Narrows (fd : Nat) (after lone : EPollPoller × Channel) : Prop where
  poller : lone.1 = after.1.only fd
  channel : lone.2 = after.2
  fd : after.2.fd = fd

theorem updateChannel_only (p : EPollPoller) (ch : Channel) :
    Related (Narrows ch.fd) (p.updateChannel ch) ((p.only ch.fd).updateChannel ch) := by
  unfold updateChannel
  cases ch.index with
  | kNew =>
      simp only [← setChannels_only]
      exact (update_only _ { ch with index := .kAdded } .ctlAdd).bind
        fun _ _ same => ⟨same, rfl, rfl⟩
  | kDeleted =>
      exact (update_only _ { ch with index := .kAdded } .ctlAdd).bind
        fun _ _ same => ⟨same, rfl, rfl⟩
  | kAdded =>
      dsimp only
      split
      · exact (update_only _ ch .ctlDel).bind fun _ _ same => ⟨same, rfl, rfl⟩
      · exact (update_only _ ch .ctlMod).bind fun _ _ same => ⟨same, rfl, rfl⟩

theorem removeChannel_only (p : EPollPoller) (ch : Channel) :
    Related (Narrows ch.fd) (p.removeChannel ch) ((p.only ch.fd).removeChannel ch) := by
  unfold removeChannel
  simp only [← setChannels_only]
  by_cases added : ch.index = .kAdded
  · simp only [added, ↓reduceIte]
    exact (update_only _ ch .ctlDel).bind fun _ _ same => ⟨same, rfl, rfl⟩
  · simp only [added, ↓reduceIte]
    exact ⟨rfl, rfl, rfl⟩

end EPollPoller

/-- Whether an effect is seen outside the queue of the loop. -/
def Effect.seen : Effect → Bool
  | .queueInLoop _ => false
  | _ => true

namespace TcpConnection

/-- The connection with the poller as far as it is about its descriptor, and with the functors
given in its loop's queue. -/
def alone (c : TcpConnection) (functors pendingFunctors : List Functor) : TcpConnection :=
  { c with poller := c.poller.only c.channel.fd, functors, pendingFunctors }

/-- The two differ in notes of what was queued only. -/
def Alike (c other : TcpConnection) : Prop :=
  ∃ trace : List Effect, trace.filter Effect.seen = c.trace.filter Effect.seen ∧
    other = { c with trace }

section Alike

variable {c other : TcpConnection}

theorem Alike.of_eq (same : c = other) : c.Alike other :=
  ⟨c.trace, rfl, same.symm⟩

theorem Alike.closeCallbacks (alike : c.Alike other) : other.closeCallbacks = c.closeCallbacks := by
  obtain ⟨trace, seen, rfl⟩ := alike
  unfold TcpConnection.closeCallbacks
  rw [← List.count_filter (p := Effect.seen) rfl, seen, List.count_filter rfl]

theorem Alike.emit (alike : c.Alike other) (effect : Effect) :
    (c.emit effect).Alike (other.emit effect) := by
  obtain ⟨trace, seen, rfl⟩ := alike
  exact ⟨effect :: trace, by simp only [TcpConnection.emit, List.filter_cons, seen], rfl⟩

end Alike

/-- `other` is the connection alone. -/
def Mirrors (functors pendingFunctors : List Functor) (c other : TcpConnection) : Prop :=
  (c.alone functors pendingFunctors).Alike other

namespace Mirrors

variable {batch pending : List Functor} {c other : TcpConnection}

theorem emit (mirrors : Mirrors batch pending c other) (effect : Effect) :
    Mirrors batch pending (c.emit effect) (other.emit effect) :=
  Alike.emit mirrors effect

theorem functors (mirrors : Mirrors batch pending c other) :
    other.functors = batch := by
  obtain ⟨trace, seen, rfl⟩ := mirrors
  rfl

theorem pendingFunctors (mirrors : Mirrors batch pending c other) :
    other.pendingFunctors = pending := by
  obtain ⟨trace, seen, rfl⟩ := mirrors
  rfl

theorem poller (mirrors : Mirrors batch pending c other) :
    other.poller = c.poller.only c.channel.fd := by
  obtain ⟨trace, seen, rfl⟩ := mirrors
  rfl

theorem setState (mirrors : Mirrors batch pending c other) (state : ConnState) :
    Mirrors batch pending (c.setState state) (other.setState state) := by
  obtain ⟨trace, seen, rfl⟩ := mirrors
  exact ⟨trace, seen, rfl⟩

theorem enableET (mirrors : Mirrors batch pending c other) :
    Mirrors batch pending c.enableET other.enableET := by
  obtain ⟨trace, seen, rfl⟩ := mirrors
  exact ⟨trace, seen, rfl⟩

theorem retrieveInput (mirrors : Mirrors batch pending c other) (len : Nat) :
    Mirrors batch pending (c.retrieveInput len) (other.retrieveInput len) := by
  obtain ⟨trace, seen, rfl⟩ := mirrors
  exact ⟨trace, seen, rfl⟩

theorem setBatch (mirrors : Mirrors batch pending c other) (later : List Functor) :
    Mirrors later pending c (other.setBatch later) := by
  obtain ⟨trace, seen, rfl⟩ := mirrors
  exact ⟨trace, seen, rfl⟩

theorem swapFunctors (mirrors : Mirrors batch pending c other) :
    Mirrors pending [] c other.swapFunctors := by
  obtain ⟨trace, seen, rfl⟩ := mirrors
  exact ⟨trace, seen, rfl⟩

theorem queueInLoop (mirrors : Mirrors batch pending c other) (functor : Functor) :
    Mirrors batch (pending ++ [functor]) c (other.queueInLoop functor) := by
  obtain ⟨trace, seen, rfl⟩ := mirrors
  exact ⟨.queueInLoop functor :: trace, seen, rfl⟩

/-- The channel and the poller have changed alike. -/
theorem setChannel (mirrors : Mirrors batch pending c other)
    {after lone : EPollPoller × Channel} (narrows : EPollPoller.Narrows c.channel.fd after lone) :
    Mirrors batch pending { c with poller := after.1, channel := after.2 }
      { other with poller := lone.1, channel := lone.2 } := by
  obtain ⟨trace, seen, rfl⟩ := mirrors
  refine ⟨trace, seen, ?_⟩
  rw [narrows.poller, narrows.channel]
  simp only [alone, narrows.fd]

theorem updateEvents (mirrors : Mirrors batch pending c other) (events : EventMask) :
    Related (Mirrors batch pending) (c.updateEvents events)
      (other.updateEvents events) := by
  have mirrored := mirrors
  obtain ⟨trace, seen, rfl⟩ := mirrors
  exact (EPollPoller.updateChannel_only c.poller { c.channel with events }).bind
    fun _ _ narrows => mirrored.setChannel narrows

theorem removeChannel (mirrors : Mirrors batch pending c other) :
    Related (Mirrors batch pending) c.removeChannel other.removeChannel := by
  have mirrored := mirrors
  obtain ⟨trace, seen, rfl⟩ := mirrors
  exact (EPollPoller.removeChannel_only c.poller c.channel).bind
    fun _ _ narrows => mirrored.setChannel narrows

theorem state (mirrors : Mirrors batch pending c other) : other.state = c.state := by
  obtain ⟨trace, seen, rfl⟩ := mirrors
  rfl

theorem channel (mirrors : Mirrors batch pending c other) :
    other.channel = c.channel := by
  obtain ⟨trace, seen, rfl⟩ := mirrors
  rfl

/-- The callback is told the same. -/
theorem notify (mirrors : Mirrors batch pending c other) :
    Mirrors batch pending (c.emit (.connectionCallback c.connected))
      (other.emit (.connectionCallback other.connected)) := by
  rw [TcpConnection.connected, TcpConnection.connected, mirrors.state]
  exact mirrors.emit _

theorem connectEstablished (mirrors : Mirrors batch pending c other) :
    Related (Mirrors batch pending) c.connectEstablished other.connectEstablished := by
  have up := (mirrors.setState .kConnected).enableET
  unfold TcpConnection.connectEstablished TcpConnection.enableReading
  rw [up.channel]
  exact (up.updateEvents _).bind fun _ _ enabled => enabled.notify

theorem disconnect (mirrors : Mirrors batch pending c other) :
    Related (Mirrors batch pending) c.disconnect other.disconnect :=
  ((mirrors.setState .kDisconnected).updateEvents kNoneEvent).bind
    fun _ _ disabled => disabled.notify

theorem handleClose (mirrors : Mirrors batch pending c other) :
    Related (Mirrors batch pending) c.handleClose other.handleClose :=
  mirrors.disconnect.bind fun _ _ down => down.emit .closeCallback

theorem connectDestroyed (mirrors : Mirrors batch pending c other) :
    Related (Mirrors batch pending) c.connectDestroyed other.connectDestroyed := by
  unfold TcpConnection.connectDestroyed
  rw [mirrors.state]
  split
  · exact mirrors.disconnect.bind fun _ _ down => down.removeChannel
  · exact mirrors.removeChannel

/-- The two have the same callbacks to run next. -/
def Agree (batch pending : List Functor) (after lone : TcpConnection × Bool) : Prop :=
  Mirrors batch pending after.1 lone.1 ∧ lone.2 = after.2

theorem once {first second : Except Fault TcpConnection}
    (related : Related (Mirrors batch pending) first second) :
    Related (Agree batch pending) (first.map (·, false)) (second.map (·, false)) :=
  related.map fun _ _ mirrors => ⟨mirrors, rfl⟩

theorem setInput (mirrors : Mirrors batch pending c other) (inputBuffer : Buffer) :
    Mirrors batch pending { c with inputBuffer } { other with inputBuffer } := by
  obtain ⟨trace, seen, rfl⟩ := mirrors
  exact ⟨trace, seen, rfl⟩

theorem inputBuffer (mirrors : Mirrors batch pending c other) :
    other.inputBuffer = c.inputBuffer := by
  obtain ⟨trace, seen, rfl⟩ := mirrors
  rfl

theorem readOnce (mirrors : Mirrors batch pending c other) (result : ReadResult) :
    Related (Agree batch pending) (c.readOnce result) (other.readOnce result) := by
  unfold TcpConnection.readOnce
  rw [mirrors.inputBuffer]
  cases c.inputBuffer.readFd result with
  | error fault => exact rfl
  | ok value =>
      obtain ⟨inputBuffer, outcome⟩ := value
      have filled := mirrors.setInput inputBuffer
      cases outcome with
      | count n =>
          cases n with
          | zero => exact once filled.handleClose
          | succ n => exact ⟨filled.emit .messageCallback, rfl⟩
      | error errno =>
          cases errno with
          | EAGAIN => exact ⟨filled, rfl⟩
          | EPIPE | ECONNRESET | other code => exact once filled.handleClose

/-- Without write interest `handleWrite` does nothing. -/
theorem run (mirrors : Mirrors batch pending c other)
    (writing : c.channel.isWriting = false) (handler : Handler) (read : ReadResult)
    (writes : List IoResult) :
    Related (Agree batch pending) (handler.run read writes c)
      (handler.run read writes other) := by
  cases handler with
  | close => exact once mirrors.handleClose
  | error => exact once mirrors.handleClose
  | read => exact mirrors.readOnce read
  | write =>
      simp only [Handler.run, handleWrite, mirrors.channel, writing]
      exact ⟨mirrors, rfl⟩

end Mirrors

end TcpConnection

namespace Session

/-- The connection as the constructor makes it. -/
def Config.created (config : Config) : TcpConnection :=
  .create config.self config.fd config.highWaterMark config.writeCompleteCallback
    config.highWaterMarkCallback

/-- A session starts with what `connectEstablished` makes of a new connection. -/
theorem created_connectEstablished (config : Config) :
    config.created.connectEstablished = .ok (established config) :=
  rfl

end Session

end KamaWebserver
