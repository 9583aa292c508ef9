import KamaWebserver.Session

set_option autoImplicit false

namespace KamaWebserver

open Outcome Trace Transition

namespace TcpConnection

/-- What the kernel took and what is still buffered are the payloads of `sendInLoop`, in
call order, and the channel waits for writability exactly while something is buffered. -/
structure Streams (c : TcpConnection) : Prop where
  sound : c.Sound
  watched : c.Watched
  balance : stream Effect.handed c.trace ++ c.readable = stream Effect.payload c.trace

variable {c after : TcpConnection}

/-- A step that hands nothing over and leaves output and interest alone. -/
theorem Streams.of_idle (streams : c.Streams) (sound : after.Sound)
    (readable : after.readable = c.readable)
    (writing : after.channel.isWriting = c.channel.isWriting)
    (handed : stream Effect.handed after.trace = stream Effect.handed c.trace)
    (payload : stream Effect.payload after.trace = stream Effect.payload c.trace) :
    after.Streams := by
  refine ⟨sound, ?_, ?_⟩
  · unfold Watched
    rw [writing, readable]
    exact streams.watched
  · rw [handed, readable, streams.balance, payload]

theorem Streams.emit (streams : c.Streams) {effect : Effect} (handed : effect.handed = [])
    (payload : effect.payload = []) : (c.emit effect).Streams :=
  streams.of_idle (streams.sound.emit effect) rfl rfl (by simp [TcpConnection.emit, handed])
    (by simp [TcpConnection.emit, payload])

theorem Streams.queueInLoop (streams : c.Streams) (functor : Functor) :
    (c.queueInLoop functor).Streams :=
  streams.of_idle (streams.sound.queueInLoop functor) rfl rfl
    (by simp [TcpConnection.queueInLoop, Effect.handed])
    (by simp [TcpConnection.queueInLoop, Effect.payload])

theorem Streams.setState (streams : c.Streams) (state : ConnState) : (c.setState state).Streams :=
  streams.of_idle (streams.sound.setState state) rfl rfl rfl rfl

theorem Streams.shutdownInLoop (streams : c.Streams) : c.shutdownInLoop.Streams := by
  unfold TcpConnection.shutdownInLoop
  split
  · exact streams
  · exact streams.emit rfl rfl

theorem Streams.sendInLoop (streams : c.Streams) {data : ByteString} {result : IoResult}
    (kept : c.canWriteDirectly = true → result.givesUp = false)
    (ran : c.sendInLoop data result = .ok after) : after.Streams := by
  obtain ⟨effects, extended, -, payload, rest⟩ :=
    (sendInLoop_spec streams.sound data result).of_ok ran
  obtain ⟨watched, handed⟩ := rest streams.watched kept
  refine ⟨extended.sound, watched, ?_⟩
  rw [extended.stream _ fun _ => rfl, extended.stream _ fun _ => rfl, List.append_assoc, handed,
    ← List.append_assoc, streams.balance, payload]

theorem Streams.handleWrite (streams : c.Streams) {results : List IoResult}
    (wrote : c.handleWrite results = .ok after) : after.Streams := by
  obtain ⟨next, effects, returned, extended, -, payload, handed, watched, -⟩ :=
    handleWrite_ok streams.sound results
  cases returned.symm.trans wrote
  refine ⟨extended.sound, watched streams.watched, ?_⟩
  rw [extended.stream _ fun _ => rfl, extended.stream _ fun _ => rfl, List.append_assoc, handed,
    streams.balance, payload, List.append_nil]

theorem Streams.readOnce (streams : c.Streams) {result : ReadResult} {again : Bool}
    (goes : c.closesOnRead result = false) (read : c.readOnce result = .ok (after, again)) :
    after.Streams := by
  obtain ⟨sound, channel, -, outputBuffer, -, -, trace⟩ :=
    (readOnce_keeps streams.sound result goes).of_ok read
  have shown : after.trace = c.trace ∨ after.trace = .messageCallback :: c.trace := trace
  refine streams.of_idle sound (congrArg Buffer.readable outputBuffer)
    (congrArg Channel.isWriting channel) ?_ ?_
  · rcases shown with same | grown
    · rw [same]
    · simp [grown, Effect.handed]
  · rcases shown with same | grown
    · rw [same]
    · simp [grown, Effect.payload]

theorem Streams.connectEstablished (streams : c.Streams)
    (ran : c.connectEstablished = .ok after) : after.Streams := by
  obtain ⟨next, returned, switched, -, writing⟩ := connectEstablished_ok streams.sound
  cases returned.symm.trans ran
  exact streams.of_idle switched.sound (congrArg Buffer.readable switched.outputBuffer) writing
    (by simp [switched.trace, Effect.handed]) (by simp [switched.trace, Effect.payload])

end TcpConnection

namespace Session

/-- `sendInLoop`, `handleWrite` and what else keeps the connection open: no close, no file,
and no direct write that ends in EPIPE or ECONNRESET. -/
def SendOnly (s : Session) : SessionEvent → Prop
  | .handleClose => False
  | .handleError => False
  | .handleRead result => s.conn.closesOnRead result = false
  | .runFunctor result =>
      s.conn.functors.head? ≠ some .connectDestroyed ∧
        (∀ file offset count,
          s.conn.functors.head? ≠ some (.sendFileInLoop file offset count)) ∧
        (s.conn.canWriteDirectly = true → result.givesUp = false)
  | .send _ result => s.conn.canWriteDirectly = true → result.givesUp = false
  | .sendFile _ _ _ _ _ => False
  | .destroyServer inLoopThread => inLoopThread = false
  | _ => True

variable {s after : Session}

theorem streams_advance (streams : s.conn.Streams) {index : Nat}
    (taken : s.advance index = .ok after) : after.conn.Streams := by
  obtain ⟨call, -, rfl⟩ := advance_ok taken
  cases call with
  | queueSend data => exact streams.queueInLoop _
  | queueSendFile file offset count => exact streams.queueInLoop _
  | storeDisconnecting => exact streams.setState _
  | queueShutdown => exact streams.queueInLoop _

theorem streams_step {event : SessionEvent} (streams : s.conn.Streams)
    (guarded : s.SendOnly event) (taken : s.step event = .ok after) : after.conn.Streams := by
  have sound := streams.sound
  cases step_inv taken with
  | handleEvent revents idle between seen => exact streams
  | handleClose rest conn waiting closed => exact guarded.elim
  | handleError rest conn waiting closed => exact guarded.elim
  | handleRead result rest conn again waiting read => exact streams.readOnce guarded read
  | handleWrite results rest conn waiting wrote => exact streams.handleWrite wrote
  | doPendingFunctors idle between => exact streams.of_idle sound.swapFunctors rfl rfl rfl rfl
  | runFunctor result functor functors conn batch ran =>
      obtain ⟨noDestroy, noFile, kept⟩ := guarded
      rw [batch] at noDestroy noFile
      have popped : (s.conn.setBatch functors).Streams :=
        streams.of_idle (sound.setBatch functors) rfl rfl rfl rfl
      cases functor with
      | connectEstablished => exact popped.connectEstablished ran
      | connectDestroyed => exact absurd rfl noDestroy
      | sendInLoop data => exact popped.sendInLoop kept ran
      | sendFileInLoop file offset count => exact absurd rfl (noFile file offset count)
      | shutdownInLoop =>
          cases ran
          exact popped.shutdownInLoop
      | writeComplete =>
          cases ran
          exact popped
      | highWaterMark pending =>
          cases ran
          exact popped
  | retrieve len => exact streams.of_idle (sound.retrieveInput len) rfl rfl rfl rfl
  | send data result conn up ran =>
      have accepted : (s.conn.emit (.accept data.bytes)).Streams := streams.emit rfl rfl
      exact accepted.sendInLoop guarded ran
  | sendRefused data result down => exact streams
  | sendFile file offset count result between middle up other => exact guarded.elim
  | sendFileRefused file offset count result between down => exact streams
  | shutdown up => exact (streams.setState _).shutdownInLoop
  | shutdownRefused down => exact streams
  | other call up first =>
      cases call with
      | queueSend data => exact streams.emit rfl rfl
      | queueSendFile file offset count => exact streams.emit rfl rfl
      | storeDisconnecting => exact streams
      | queueShutdown => exact streams
  | advance index _ moved => exact streams_advance streams moved
  | storeOverwritten index found down => exact streams
  | removeConnectionInLoop closed => exact streams.queueInLoop _
  | destroyHere conn tabled idle ran => cases guarded
  | destroyElsewhere tabled => exact streams.queueInLoop _

theorem start_streams (config : Config) : (start config).conn.Streams :=
  ⟨established_sound config, established_watched config, rfl⟩

/-- Over every run that only sends, no byte is lost, repeated or reordered between the
kernel and the output buffer, and buffered output is always watched. -/
theorem send_stream_intact (config : Config) (events : List SessionEvent) (s : Session)
    (sends : Guarded step SendOnly (start config) events)
    (reached : run step (start config) events = .ok s) :
    stream Effect.handed s.conn.trace ++ s.conn.readable =
        stream Effect.payload s.conn.trace ∧
      (s.conn.channel.isWriting = true ↔ s.conn.readable ≠ []) := by
  have streams := run_preserves (fun s : Session => s.conn.Streams)
    (fun _ _ _ streams guarded taken => streams_step streams guarded taken)
    (start_streams config) sends reached
  exact ⟨streams.balance, streams.watched⟩

/-- A short direct write and the write that drains the rest. -/
theorem send_stream_intact_shortWrite :
    ∃ s, run step (start plainConfig) [.send ⟨[1, 2], by decide⟩ (.count 1),
        .handleEvent EPOLLOUT, .handleWrite [.count 1]] = .ok s ∧
      stream Effect.handed s.conn.trace ++ s.conn.readable =
        stream Effect.payload s.conn.trace ∧
      (s.conn.channel.isWriting = true ↔ s.conn.readable ≠ []) := by
  obtain ⟨s, reached, -⟩ := (map_ok_iff _ _ _).mp
    (show (run step (start plainConfig) [.send ⟨[1, 2], by decide⟩ (.count 1),
      .handleEvent EPOLLOUT, .handleWrite [.count 1]]).map
      (fun s => stream Effect.handed s.conn.trace) = .ok [1, 2] by decide +kernel)
  refine ⟨s, reached, send_stream_intact plainConfig _ s (guarded_of_forall ?_ _) reached⟩
  intro event inside state
  simp only [List.mem_cons, List.not_mem_nil, or_false] at inside
  rcases inside with rfl | rfl | rfl
  · exact fun _ => rfl
  · trivial
  · trivial

end Session

end KamaWebserver
