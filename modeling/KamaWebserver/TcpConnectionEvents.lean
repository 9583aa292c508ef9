import KamaWebserver.TcpConnectionOutput

set_option autoImplicit false

namespace KamaWebserver

open Outcome Trace

namespace TcpConnection

variable {c : TcpConnection}

theorem shutdownInLoop_extends (sound : c.Sound) :
    c.Extends c.shutdownInLoop [] (if c.channel.isWriting then [] else [.shutdownWrite]) := by
  unfold shutdownInLoop
  split
  · exact Extends.refl sound
  · exact emit_extends sound .shutdownWrite rfl

@[simp] theorem shutdownInLoop_readable (c : TcpConnection) :
    c.shutdownInLoop.readable = c.readable := by
  unfold shutdownInLoop
  split <;> rfl

@[simp] theorem shutdownInLoop_channel (c : TcpConnection) :
    c.shutdownInLoop.channel = c.channel := by
  unfold shutdownInLoop
  split <;> rfl

/-- What the kernel and the peer see of a drained output buffer. -/
def drainEffects (state : ConnState) : List Effect :=
  if state = .kDisconnecting then [.shutdownWrite] else []

/-- Draining stops the write interest and, when the connection is disconnecting,
closes the write side. -/
theorem outputDrained_ok (sound : c.Sound) :
    ∃ after, c.outputDrained = .ok after ∧ c.Extends after [] (drainEffects c.state) ∧
      after.readable = c.readable ∧ after.channel.isWriting = false := by
  obtain ⟨quiet, disabled, idle, held, writing⟩ := disableWriting_ok sound
  have noticed := idle.trans (queueWriteComplete_extends idle.sound)
  have state : quiet.queueWriteComplete.state = c.state := noticed.state
  have off : quiet.queueWriteComplete.channel.isWriting = false := by
    rw [queueWriteComplete_channel, writing]
  unfold outputDrained
  simp only [disabled, Bind.bind, Except.bind, Pure.pure, Except.pure, state]
  by_cases leaving : c.state = .kDisconnecting
  · have closed := noticed.trans (shutdownInLoop_extends noticed.sound)
    simp only [leaving, ↓reduceIte, drainEffects]
    simp only [off, Bool.false_eq_true, ↓reduceIte, List.append_nil] at closed
    exact ⟨_, rfl, closed, by simp [held], by simp [writing]⟩
  · simp only [leaving, ↓reduceIte, drainEffects]
    exact ⟨_, rfl, noticed, by simp [held], off⟩

/-- What the kernel took of the output leaves the buffer. -/
theorem retrieveOutput_extends (sound : c.Sound) (n : Nat) :
    c.Extends (c.retrieveOutput n) [] [] ∧
      (c.retrieveOutput n).readable = c.readable.drop n := by
  obtain ⟨valid, bytes⟩ := sound.output.retrieve n
  exact ⟨Extends.withOutput sound valid, bytes⟩

/-- One turn of the loop in `handleWrite` hands over a prefix of the output; it drains
when that prefix is everything and not empty. -/
theorem writeOnce_ok (sound : c.Sound) (result : IoResult) :
    ∃ after again, c.writeOnce result = .ok (after, again) ∧
      after.readable = c.readable.drop (result.accepted c.readable).length ∧
      (again = true ↔ result.accepted c.readable ≠ []) ∧
      ((result.accepted c.readable ≠ [] ∧ after.readable = [] ∧
          c.Extends after [] (drainEffects c.state ++ [.write (result.accepted c.readable)]) ∧
          after.channel.isWriting = false) ∨
        ((result.accepted c.readable = [] ∨ after.readable ≠ []) ∧
          c.Extends after [] [.write (result.accepted c.readable)] ∧
          after.channel = c.channel)) := by
  have wrote := emit_extends sound (.write (result.accepted c.readable)) rfl
  simp only [writeOnce, Buffer.writeFd_eq sound.output]
  cases result with
  | error errno =>
      exact ⟨_, false, rfl, by simp [IoResult.accepted, emit], by simp [IoResult.accepted],
        Or.inr ⟨Or.inl rfl, wrote, rfl⟩⟩
  | count n =>
      simp only [IoResult.accepted] at wrote ⊢
      by_cases none : c.readable.take n = []
      · rw [none] at wrote ⊢
        refine ⟨c.emit (.write []), false, ?_, rfl, by simp, Or.inr ⟨Or.inl rfl, wrote, rfl⟩⟩
        simp only [Bind.bind, Except.bind]
        rfl
      · obtain ⟨k, length⟩ := Nat.exists_eq_succ_of_ne_zero
          (fun zero => none (List.length_eq_zero_iff.mp zero))
        obtain ⟨moved, bytes⟩ := retrieveOutput_extends wrote.sound (k + 1)
        have rest := moved.sound.readable_length
        have taken := wrote.trans moved
        simp only [Bind.bind, Except.bind, length, Nat.succ_eq_add_one, Pure.pure, Except.pure]
        split
        · rename_i drained
          obtain ⟨after, returned, extended, held, writing⟩ := outputDrained_ok moved.sound
          have empty : after.readable = [] := by
            rw [held, ← List.length_eq_zero_iff, ← rest, drained]
          exact ⟨after, true, congrArg (Except.map (·, true)) returned, held.trans bytes,
            by simp [none], Or.inl ⟨none, empty, taken.trans extended, writing⟩⟩
        · rename_i more
          refine ⟨_, true, rfl, bytes, by simp [none], Or.inr ⟨Or.inr ?_, taken, rfl⟩⟩
          intro empty
          exact more (rest.trans (List.length_eq_zero_iff.mpr empty))

/-- What one turn shows: it hands over the bytes taken, and closes the write side only
after the last of the output. -/
theorem writeOnce_spec (sound : c.Sound) (result : IoResult) :
    ∃ after again effects, c.writeOnce result = .ok (after, again) ∧
      c.Extends after [] effects ∧
      (∀ effect ∈ effects, effect.isOutput = true ∨ effect = .shutdownWrite) ∧
      stream Effect.payload effects = [] ∧
      stream Effect.handed effects = result.accepted c.readable ∧
      after.readable = c.readable.drop (result.accepted c.readable).length ∧
      (again = true ↔ result.accepted c.readable ≠ []) ∧
      (c.Watched → after.Watched) ∧
      AtEach (· = .shutdownWrite) (fun earlier => c.state = .kDisconnecting ∧
        result.accepted c.readable ≠ [] ∧ after.readable = [] ∧
        stream Effect.handed earlier = result.accepted c.readable) effects := by
  obtain ⟨after, again, returned, rest, goes, outcome⟩ := writeOnce_ok sound result
  refine ⟨after, again, ?_⟩
  rcases outcome with ⟨some, empty, extended, idle⟩ | ⟨open', extended, channel⟩
  · refine ⟨_, returned, extended, ?_, ?_, ?_, rest, goes, ?_, ?_⟩
    · unfold drainEffects
      split <;> simp [Effect.isOutput]
    · unfold drainEffects
      split <;> simp [Effect.payload]
    · unfold drainEffects
      split <;> simp [Effect.handed]
    · intro _
      simp [Watched, idle, empty]
    · unfold drainEffects
      split
      · rename_i leaving
        simp [AtEach, leaving, some, empty, Effect.handed]
      · simp [AtEach]
  · refine ⟨_, returned, extended, by simp [Effect.isOutput], by simp [Effect.payload],
      by simp [Effect.handed], rest, goes, ?_, by simp [AtEach]⟩
    unfold Watched
    intro watched
    rw [channel, watched]
    rcases open' with none | more
    · rw [rest, none]
      simp
    · have full : c.readable ≠ [] := by
        intro empty
        exact more (by rw [rest, empty, List.drop_nil])
      simp [full, more]

/-- The kernel's answers empty an output buffer of `pending` bytes. -/
def drains : Nat → List IoResult → Bool
  | _, [] => false
  | _, .error _ :: _ => false
  | pending, .count n :: results => 0 < n && (pending ≤ n || drains (pending - n) results)

/-- Emptying the buffer after this answer, at once or later, empties it. -/
theorem drains_cons (result : IoResult) (results : List IoResult) (output : List UInt8)
    (some : result.accepted output ≠ [])
    (rest : output.drop (result.accepted output).length = [] ∨
      drains (output.drop (result.accepted output).length).length results = true) :
    drains output.length (result :: results) = true := by
  cases result with
  | error errno => simp [IoResult.accepted] at some
  | count n =>
      simp only [IoResult.accepted, ne_eq, List.take_eq_nil_iff, not_or] at some rest
      have positive : 0 < n := Nat.pos_of_ne_zero some.1
      simp only [drains, positive, decide_true, Bool.true_and, Bool.or_eq_true,
        decide_eq_true_eq]
      by_cases short : output.length ≤ n
      · exact Or.inl short
      · have length : (output.take n).length = n := List.length_take_of_le (by omega)
        rw [length, List.drop_eq_nil_iff, List.length_drop] at rest
        rcases rest with ended | later
        · exact Or.inl ended
        · exact Or.inr later

/-- The loop of `handleWrite` hands over a prefix of the output in order and closes the
write side only when it has handed over all of it. -/
theorem handleWriteLoop_ok (sound : c.Sound) (results : List IoResult) :
    ∃ after effects, c.handleWriteLoop results = .ok after ∧ c.Extends after [] effects ∧
      (∀ effect ∈ effects, effect.isOutput = true ∨ effect = .shutdownWrite) ∧
      stream Effect.payload effects = [] ∧
      stream Effect.handed effects ++ after.readable = c.readable ∧
      (c.Watched → after.Watched) ∧
      AtEach (· = .shutdownWrite) (fun earlier => c.state = .kDisconnecting ∧
        drains c.readable.length results = true ∧ stream Effect.handed earlier = c.readable)
        effects := by
  induction results generalizing c with
  | nil =>
      obtain ⟨after, again, effects, returned, extended, shown, silent, taken, rest, goes,
        watched, closes⟩ := writeOnce_spec sound (.error .EAGAIN)
      simp only [IoResult.accepted] at taken rest closes
      refine ⟨after, effects, ?_, extended, shown, silent, ?_, watched, ?_⟩
      · simp only [handleWriteLoop, returned]
        rfl
      · rw [taken, rest]
        rfl
      · exact closes.mono fun earlier close => absurd rfl close.2.1
  | cons result results ih =>
      obtain ⟨middle, again, effects, returned, extended, shown, silent, taken, rest, goes,
        watched, closes⟩ := writeOnce_spec sound result
      have split := result.accepted_prefix c.readable
      have closed : AtEach (· = .shutdownWrite) (fun earlier => c.state = .kDisconnecting ∧
          drains c.readable.length (result :: results) = true ∧
          stream Effect.handed earlier = c.readable) effects := by
        apply closes.mono
        rintro earlier ⟨leaving, some, empty, handed⟩
        rw [rest] at empty
        refine ⟨leaving, drains_cons result results _ some (Or.inl empty), ?_⟩
        rw [empty, List.append_nil] at split
        exact handed.trans split
      cases again with
      | false =>
          refine ⟨middle, effects, ?_, extended, shown, silent, ?_, watched, closed⟩
          · simp only [handleWriteLoop, returned]
            rfl
          · rw [taken, rest, split]
      | true =>
          obtain ⟨after, effects', returned', extended', shown', silent', taken', watched',
            closes'⟩ := ih extended.sound
          have some := goes.mp rfl
          refine ⟨after, effects' ++ effects, ?_, extended.trans extended', ?_, ?_, ?_,
            watched' ∘ watched, closed.append ?_⟩
          · simp only [handleWriteLoop, returned]
            exact returned'
          · intro effect inside
            rcases List.mem_append.mp inside with new | old
            · exact shown' effect new
            · exact shown effect old
          · rw [stream_append, silent, silent']
            rfl
          · rw [stream_append, List.append_assoc, taken', taken, rest, split]
          · apply closes'.mono
            rintro earlier ⟨leaving, drained, handed⟩
            rw [rest] at drained handed
            refine ⟨extended.state.symm.trans leaving,
              drains_cons result results _ some (Or.inr drained), ?_⟩
            rw [stream_append, taken, handed, split]

theorem handleWrite_ok (sound : c.Sound) (results : List IoResult) :
    ∃ after effects, c.handleWrite results = .ok after ∧ c.Extends after [] effects ∧
      (∀ effect ∈ effects, effect.isOutput = true ∨ effect = .shutdownWrite) ∧
      stream Effect.payload effects = [] ∧
      stream Effect.handed effects ++ after.readable = c.readable ∧
      (c.Watched → after.Watched) ∧
      AtEach (· = .shutdownWrite) (fun earlier => c.channel.isWriting = true ∧
        c.state = .kDisconnecting ∧ drains c.readable.length results = true ∧
        stream Effect.handed earlier = c.readable) effects := by
  unfold handleWrite
  split
  · rename_i writing
    obtain ⟨after, effects, returned, extended, shown, silent, taken, watched, closes⟩ :=
      handleWriteLoop_ok sound results
    exact ⟨after, effects, returned, extended, shown, silent, taken, watched,
      closes.mono fun earlier close => ⟨writing, close⟩⟩
  · exact ⟨c, [], rfl, Extends.refl sound, by simp, rfl, rfl, id, trivial⟩

/-- `after` comes from `c` by a change of state, mask and poller alone, which the
application and the peer see as `effects`. -/
structure Switches (c after : TcpConnection) (state : ConnState) (effects : List Effect) :
    Prop where
  sound : after.Sound
  state : after.state = state
  outputBuffer : after.outputBuffer = c.outputBuffer
  functors : after.functors = c.functors
  pendingFunctors : after.pendingFunctors = c.pendingFunctors
  trace : after.trace = effects ++ c.trace

theorem disconnect_ok (sound : c.Sound) :
    ∃ after, c.disconnect = .ok after ∧
      c.Switches after .kDisconnected [.connectionCallback false] ∧
      after.channel.isReading = false ∧ after.channel.isWriting = false := by
  have down : (c.setState .kDisconnected).Sound := ⟨sound.input, sound.output, sound.registered⟩
  obtain ⟨poller, channel, updated, mask, kept⟩ := updateEvents_ok down kNoneEvent
  refine ⟨_, ?_, ⟨kept.emit (.connectionCallback false), rfl, rfl, rfl, rfl, rfl⟩, ?_, ?_⟩
  · simp only [disconnect, disableAll, updated]
    rfl
  · simp [emit, Channel.isReading_eq, mask, kNoneEvent]
  · simp [emit, Channel.isWriting_eq, mask, kNoneEvent]

/-- `handleClose` notifies whatever the state was. -/
theorem handleClose_ok (sound : c.Sound) :
    ∃ after, c.handleClose = .ok after ∧
      c.Switches after .kDisconnected [.closeCallback, .connectionCallback false] ∧
      after.channel.isReading = false ∧ after.channel.isWriting = false := by
  obtain ⟨after, returned, switched, reading, writing⟩ := disconnect_ok sound
  refine ⟨after.emit .closeCallback, ?_, ⟨switched.sound.emit _, switched.state,
    switched.outputBuffer, switched.functors, switched.pendingFunctors, ?_⟩, reading, writing⟩
  · simp only [handleClose, returned]
    rfl
  · simp [emit, switched.trace]

theorem removeChannel_ok (sound : c.Sound) :
    ∃ after, c.removeChannel = .ok after ∧ c.Switches after c.state [] ∧
      after.channel.events = c.channel.events := by
  obtain ⟨poller, channel, removed, agrees, mask⟩ := EPollPoller.removeChannel_ok sound.registered
  refine ⟨{ c with poller, channel }, ?_, ⟨⟨sound.input, sound.output, agrees⟩, rfl, rfl, rfl,
    rfl, rfl⟩, mask⟩
  simp only [removeChannel, removed]
  rfl

/-- `connectDestroyed` notifies in kConnected only, and takes the channel out of the
poller in every state. -/
theorem connectDestroyed_ok (sound : c.Sound) :
    ∃ after, c.connectDestroyed = .ok after ∧
      (if c.state = .kConnected then
        c.Switches after .kDisconnected [.connectionCallback false] ∧
          after.channel.isReading = false ∧ after.channel.isWriting = false
      else c.Switches after c.state [] ∧ after.channel.isReading = c.channel.isReading ∧
        after.channel.isWriting = c.channel.isWriting) := by
  unfold connectDestroyed
  split
  · obtain ⟨middle, returned, first, reading, writing⟩ := disconnect_ok sound
    obtain ⟨after, removed, second, mask⟩ := removeChannel_ok first.sound
    refine ⟨after, by simp only [returned, Bind.bind, Except.bind, removed],
      ⟨second.sound, second.state.trans first.state,
        second.outputBuffer.trans first.outputBuffer, second.functors.trans first.functors,
        second.pendingFunctors.trans first.pendingFunctors, ?_⟩, ?_, ?_⟩
    · rw [second.trace, first.trace]
      rfl
    · rw [Channel.isReading_eq, mask, ← Channel.isReading_eq, reading]
    · rw [Channel.isWriting_eq, mask, ← Channel.isWriting_eq, writing]
  · obtain ⟨after, removed, second, mask⟩ := removeChannel_ok sound
    refine ⟨after, removed, second, ?_, ?_⟩
    · rw [Channel.isReading_eq, mask, ← Channel.isReading_eq]
    · rw [Channel.isWriting_eq, mask, ← Channel.isWriting_eq]

theorem connectEstablished_ok (sound : c.Sound) :
    ∃ after, c.connectEstablished = .ok after ∧
      c.Switches after .kConnected [.connectionCallback true] ∧
      after.channel.isReading = true ∧ after.channel.isWriting = c.channel.isWriting := by
  have up : (c.setState .kConnected).enableET.Sound :=
    ⟨sound.input, sound.output, sound.registered⟩
  obtain ⟨poller, channel, updated, mask, kept⟩ :=
    updateEvents_ok up ((c.setState .kConnected).enableET.channel.events ||| kReadEvent)
  refine ⟨_, ?_, ⟨kept.emit (.connectionCallback true), rfl, rfl, rfl, rfl, rfl⟩, ?_, ?_⟩
  · simp only [connectEstablished, enableReading, updated]
    rfl
  · simp [emit, Channel.isReading_eq, mask, kReadEvent, EPOLLIN, EPOLLPRI]
  · simp [emit, Channel.isWriting_eq, mask, kReadEvent, EPOLLIN, EPOLLPRI, enableET, setState,
      Channel.enableET, EPOLLET]

/-- A read after which `handleRead` closes the connection: end of stream, or an error
other than EAGAIN. -/
def closesOnRead (c : TcpConnection) : ReadResult → Bool
  | .data incoming => c.inputBuffer.received incoming = []
  | .error errno => errno ≠ .EAGAIN

/-- A closing read ends in `handleClose`. -/
theorem readOnce_closes (sound : c.Sound) (result : ReadResult)
    (closes : c.closesOnRead result = true) :
    ∃ after, c.readOnce result = .ok (after, false) ∧
      c.Switches after .kDisconnected [.closeCallback, .connectionCallback false] ∧
      after.channel.isReading = false ∧ after.channel.isWriting = false := by
  cases result with
  | data incoming =>
      have ended : c.inputBuffer.received incoming = [] := by
        simpa [closesOnRead] using closes
      obtain ⟨inputBuffer, read, valid⟩ := Buffer.readFd_eof sound.input incoming ended
      have sound' : Sound { c with inputBuffer } := ⟨valid, sound.output, sound.registered⟩
      obtain ⟨after, closed, switched, reading, writing⟩ := handleClose_ok sound'
      refine ⟨after, ?_, ⟨switched.sound, switched.state, switched.outputBuffer,
        switched.functors, switched.pendingFunctors, switched.trace⟩, reading, writing⟩
      simp only [readOnce, read]
      exact congrArg (Except.map (·, false)) closed
  | error errno =>
      obtain ⟨after, closed, switched, reading, writing⟩ := handleClose_ok sound
      refine ⟨after, ?_, switched, reading, writing⟩
      cases errno with
      | EAGAIN => simp [closesOnRead] at closes
      | EPIPE => exact congrArg (Except.map (·, false)) closed
      | ECONNRESET => exact congrArg (Except.map (·, false)) closed
      | other code => exact congrArg (Except.map (·, false)) closed

/-- Any other read changes the input buffer only. -/
theorem readOnce_keeps (sound : c.Sound) (result : ReadResult)
    (goes : c.closesOnRead result = false) :
    Spec Buffer.Throws (fun after => after.1.Sound ∧ after.1.channel = c.channel ∧
        after.1.state = c.state ∧ after.1.outputBuffer = c.outputBuffer ∧
        after.1.functors = c.functors ∧ after.1.pendingFunctors = c.pendingFunctors ∧
        (after.1.trace = c.trace ∨ after.1.trace = .messageCallback :: c.trace))
      (c.readOnce result) := by
  cases result with
  | data incoming =>
      have some : c.inputBuffer.received incoming ≠ [] := by
        simpa [closesOnRead] using goes
      obtain ⟨k, length⟩ := Nat.exists_eq_succ_of_ne_zero
        (fun zero => some (List.length_eq_zero_iff.mp zero))
      apply (Buffer.readFd_spec sound.input (.data incoming)).bind_of_ok
      rintro ⟨inputBuffer, outcome⟩ read ⟨valid, -⟩
      have count := Buffer.readFd_count read
      rw [length] at count
      simp only [count]
      exact ⟨⟨valid, sound.output, sound.registered⟩, rfl, rfl, rfl, rfl, rfl, Or.inr rfl⟩
  | error errno =>
      have again : errno = .EAGAIN := by
        simpa [closesOnRead] using goes
      subst again
      exact ⟨⟨sound.input, sound.output, sound.registered⟩, rfl, rfl, rfl, rfl, rfl, Or.inl rfl⟩

end TcpConnection

end KamaWebserver
