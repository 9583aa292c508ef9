import KamaWebserver.BufferFifo
import KamaWebserver.Library.Trace
import KamaWebserver.TcpConnection

set_option autoImplicit false

namespace KamaWebserver

open Outcome Trace

namespace Effect

/-- The bytes the kernel took. -/
def handed : Effect → List UInt8
  | .write bytes => bytes
  | .sendfile bytes => bytes
  | _ => []

/-- The bytes of a send or sendFile call that found the connection connected. -/
def accepted : Effect → List UInt8
  | .accept payload => payload
  | _ => []

/-- The bytes of a call of `sendInLoop`. -/
def payload : Effect → List UInt8
  | .sendInLoop data => data
  | _ => []

/-- Everything but the queueing of a functor. -/
def isVisible : Effect → Bool
  | .queueInLoop _ => false
  | _ => true

/-- What a sending function shows. -/
def isOutput : Effect → Bool
  | .write _ => true
  | .sendfile _ => true
  | .sendInLoop _ => true
  | _ => false

theorem accepted_of_isOutput {effect : Effect} (output : effect.isOutput = true) :
    effect.accepted = [] := by
  cases effect <;> first | rfl | cases output

theorem stream_accepted {effects : List Effect}
    (shown : ∀ effect ∈ effects, effect.isOutput = true ∨ effect = .shutdownWrite) :
    stream Effect.accepted effects = [] := by
  apply stream_eq_nil
  intro effect inside
  rcases shown effect inside with output | rfl
  · exact Effect.accepted_of_isOutput output
  · rfl

end Effect

namespace Functor

/-- What the sending functions queue: the rest of a file, or a notice. -/
def isOutput : Functor → Bool
  | .sendFileInLoop _ _ _ => true
  | .writeComplete => true
  | .highWaterMark _ => true
  | _ => false

/-- The bytes a functor is still to hand to the kernel. -/
def work : Functor → List UInt8
  | .sendInLoop data => data.bytes
  | .sendFileInLoop file offset count => fileSegment file offset count
  | _ => []

/-- The bytes a queue of functors is still to hand to the kernel, in its order. -/
def workOf (functors : List Functor) : List UInt8 := functors.flatMap work

@[simp] theorem workOf_nil : workOf [] = [] := rfl

@[simp] theorem workOf_cons (functor : Functor) (functors : List Functor) :
    workOf (functor :: functors) = functor.work ++ workOf functors := rfl

@[simp] theorem workOf_append (first second : List Functor) :
    workOf (first ++ second) = workOf first ++ workOf second := List.flatMap_append

end Functor

@[simp] theorem fileSegment_zero (file : List UInt8) (offset : Nat) :
    fileSegment file offset 0 = [] := by
  simp [fileSegment]

/-- What remains of a segment starts behind the bytes taken from it. -/
theorem fileSegment_drop (file : List UInt8) (offset count taken : Nat) :
    fileSegment file (offset + taken) (count - taken) =
      (fileSegment file offset count).drop taken := by
  simp only [fileSegment, List.drop_take, List.drop_drop]

theorem IoResult.accepted_prefix (result : IoResult) (offered : List UInt8) :
    result.accepted offered ++ offered.drop (result.accepted offered).length = offered := by
  have taken : result.accepted offered <+: offered := by
    cases result with
    | count n => exact List.take_prefix n offered
    | error errno => exact List.nil_prefix
  exact (List.prefix_append_drop taken).symm

/-- The errors after which the sending functions give up what they were to send. -/
def IoResult.givesUp : IoResult → Bool
  | .count _ => false
  | .error errno => TcpConnection.faultError errno

namespace TcpConnection

/-- The output the connection still holds. -/
abbrev readable (c : TcpConnection) : List UInt8 := c.outputBuffer.readable

def visible (c : TcpConnection) : List Effect := c.trace.filter Effect.isVisible

theorem defaultBuffer_valid : defaultBuffer.Valid := by
  have length : defaultBuffer.buffer.length = cheapPrepend + initialSize := List.length_replicate
  exact ⟨Nat.le_refl _, Nat.le_refl _, by rw [length]; exact Nat.le_add_right _ _,
    by rw [length]; decide⟩

/-- What holds of every connection: ordered buffers, and a poller that knows whether
the channel is registered. -/
structure Sound (c : TcpConnection) : Prop where
  input : c.inputBuffer.Valid
  output : c.outputBuffer.Valid
  registered : c.poller.Agrees c.channel

/-- `after` comes from `c` by output alone: functors of the sending functions with `left`
bytes of work are queued, and the kernel and the application see `effects`, newest first. -/
structure Extends (c after : TcpConnection) (left : List UInt8) (effects : List Effect) :
    Prop where
  sound : after.Sound
  state : after.state = c.state
  functors : after.functors = c.functors
  pending : ∃ added, after.pendingFunctors = c.pendingFunctors ++ added ∧
    Functor.workOf added = left ∧ ∀ functor ∈ added, functor.isOutput = true
  visible : after.visible = effects ++ c.visible
  reading : after.channel.isReading = c.channel.isReading

variable {c : TcpConnection}

theorem Extends.refl (sound : c.Sound) : c.Extends c [] [] :=
  ⟨sound, rfl, rfl, ⟨[], by simp⟩, rfl, rfl⟩

theorem Extends.trans {middle after : TcpConnection} {left₁ left₂ : List UInt8}
    {effects₁ effects₂ : List Effect} (first : c.Extends middle left₁ effects₁)
    (second : middle.Extends after left₂ effects₂) :
    c.Extends after (left₁ ++ left₂) (effects₂ ++ effects₁) := by
  obtain ⟨added₁, queued₁, work₁, own₁⟩ := first.pending
  obtain ⟨added₂, queued₂, work₂, own₂⟩ := second.pending
  refine ⟨second.sound, second.state.trans first.state, second.functors.trans first.functors,
    ⟨added₁ ++ added₂, ?_, ?_, ?_⟩, ?_, second.reading.trans first.reading⟩
  · rw [queued₂, queued₁, List.append_assoc]
  · rw [Functor.workOf_append, work₁, work₂]
  · intro functor inside
    rcases List.mem_append.mp inside with old | new
    · exact own₁ functor old
    · exact own₂ functor new
  · rw [second.visible, first.visible, List.append_assoc]

/-- The trace carries the same bytes with and without the queueing of functors. -/
theorem stream_visible (part : Effect → List UInt8) (c : TcpConnection)
    (silent : ∀ functor, part (.queueInLoop functor) = []) :
    stream part c.visible = stream part c.trace := by
  apply stream_filter
  intro effect hidden
  cases effect with
  | queueInLoop functor => exact silent functor
  | _ => cases hidden

theorem Extends.stream {after : TcpConnection} {left : List UInt8} {effects : List Effect}
    (extended : c.Extends after left effects) (part : Effect → List UInt8)
    (silent : ∀ functor, part (.queueInLoop functor) = []) :
    stream part after.trace = stream part c.trace ++ stream part effects := by
  rw [← stream_visible part after silent, ← stream_visible part c silent, extended.visible,
    stream_append]

theorem Sound.emit (sound : c.Sound) (effect : Effect) : (c.emit effect).Sound :=
  ⟨sound.input, sound.output, sound.registered⟩

theorem emit_extends (sound : c.Sound) (effect : Effect) (visible : effect.isVisible = true) :
    c.Extends (c.emit effect) [] [effect] :=
  ⟨sound.emit effect, rfl, rfl, ⟨[], by simp [TcpConnection.emit]⟩,
    by simp [TcpConnection.visible, TcpConnection.emit, visible], rfl⟩

theorem Extends.withOutput (sound : c.Sound) {outputBuffer : Buffer}
    (valid : outputBuffer.Valid) : c.Extends { c with outputBuffer } [] [] :=
  ⟨⟨sound.input, valid, sound.registered⟩, rfl, rfl, ⟨[], by simp⟩, rfl, rfl⟩

theorem queueInLoop_extends (sound : c.Sound) (functor : Functor)
    (own : functor.isOutput = true) : c.Extends (c.queueInLoop functor) functor.work [] :=
  ⟨⟨sound.input, sound.output, sound.registered⟩, rfl, rfl,
    ⟨[functor], rfl, by simp, by simpa using own⟩, rfl, rfl⟩

theorem queueWriteComplete_extends (sound : c.Sound) : c.Extends c.queueWriteComplete [] [] := by
  unfold queueWriteComplete
  split
  · exact queueInLoop_extends sound .writeComplete rfl
  · exact Extends.refl sound

@[simp] theorem queueWriteComplete_readable (c : TcpConnection) :
    c.queueWriteComplete.readable = c.readable := by
  unfold queueWriteComplete
  split <;> rfl

@[simp] theorem queueWriteComplete_channel (c : TcpConnection) :
    c.queueWriteComplete.channel = c.channel := by
  unfold queueWriteComplete
  split <;> rfl

theorem completeWrite_extends (sound : c.Sound) (remaining : Nat) :
    c.Extends (c.completeWrite remaining) [] [] := by
  unfold completeWrite
  split
  · exact queueWriteComplete_extends sound
  · exact Extends.refl sound

@[simp] theorem completeWrite_readable (c : TcpConnection) (remaining : Nat) :
    (c.completeWrite remaining).readable = c.readable := by
  unfold completeWrite
  split <;> simp

@[simp] theorem completeWrite_channel (c : TcpConnection) (remaining : Nat) :
    (c.completeWrite remaining).channel = c.channel := by
  unfold completeWrite
  split <;> simp

/-- An interest operation changes the channel's mask and the poller, nothing else,
and it never fails. -/
theorem updateEvents_ok (sound : c.Sound) (events : EventMask) :
    ∃ poller channel, c.updateEvents events = .ok { c with poller, channel } ∧
      channel.events = events ∧ Sound { c with poller, channel } := by
  obtain ⟨poller, channel, updated, agrees, mask⟩ :=
    EPollPoller.updateChannel_ok
      (show c.poller.Agrees { c.channel with events } from sound.registered)
  refine ⟨poller, channel, ?_, mask, ⟨sound.input, sound.output, agrees⟩⟩
  simp only [updateEvents, updated]
  rfl

theorem enableWriting_ok (sound : c.Sound) :
    ∃ after, c.enableWriting = .ok after ∧ c.Extends after [] [] ∧
      after.readable = c.readable ∧ after.channel.isWriting = true := by
  obtain ⟨poller, channel, updated, mask, kept⟩ :=
    updateEvents_ok sound (c.channel.events ||| kWriteEvent)
  refine ⟨_, updated, ⟨kept, rfl, rfl, ⟨[], by simp⟩, rfl, ?_⟩, rfl, ?_⟩
  · simp [Channel.isReading_eq, mask, kWriteEvent, EPOLLOUT]
  · simp [Channel.isWriting_eq, mask, kWriteEvent, EPOLLOUT]

theorem disableWriting_ok (sound : c.Sound) :
    ∃ after, c.disableWriting = .ok after ∧ c.Extends after [] [] ∧
      after.readable = c.readable ∧ after.channel.isWriting = false := by
  obtain ⟨poller, channel, updated, mask, kept⟩ :=
    updateEvents_ok sound (c.channel.events &&& ~~~ kWriteEvent)
  refine ⟨_, updated, ⟨kept, rfl, rfl, ⟨[], by simp⟩, rfl, ?_⟩, rfl, ?_⟩
  · simp [Channel.isReading_eq, mask, kWriteEvent, EPOLLOUT]
  · simp [Channel.isWriting_eq, mask, kWriteEvent, EPOLLOUT]

theorem Sound.readable_length (sound : c.Sound) :
    c.outputBuffer.readableBytes = c.readable.length :=
  sound.output.readable_length.symm

theorem canWriteDirectly_iff (sound : c.Sound) :
    c.canWriteDirectly = true ↔ c.channel.isWriting = false ∧ c.readable = [] := by
  simp [canWriteDirectly, sound.readable_length]

theorem queueHighWaterMark_extends (sound : c.Sound) (remaining : Nat) :
    c.Extends (c.queueHighWaterMark remaining) [] [] := by
  unfold queueHighWaterMark
  dsimp only
  split
  · exact queueInLoop_extends sound _ rfl
  · exact Extends.refl sound

@[simp] theorem queueHighWaterMark_readable (c : TcpConnection) (remaining : Nat) :
    (c.queueHighWaterMark remaining).readable = c.readable := by
  unfold queueHighWaterMark
  dsimp only
  split <;> rfl

@[simp] theorem queueHighWaterMark_channel (c : TcpConnection) (remaining : Nat) :
    (c.queueHighWaterMark remaining).channel = c.channel := by
  unfold queueHighWaterMark
  dsimp only
  split <;> rfl

theorem appendOutput_spec (sound : c.Sound) (data : List UInt8) (small : data.length ≤ maxSize) :
    Spec Buffer.Throws (fun after => c.Extends after [] [] ∧
        after.readable = c.readable ++ data ∧ after.channel = c.channel)
      (c.appendOutput data) := by
  apply (Buffer.append_spec sound.output data small).bind
  rintro outputBuffer ⟨valid, bytes⟩
  exact ⟨Extends.withOutput sound valid, bytes, rfl⟩

/-- What remains goes behind the buffered output, which is then watched. -/
theorem bufferRemaining_spec (sound : c.Sound) (remaining : List UInt8)
    (small : remaining.length ≤ maxSize) :
    Spec Buffer.Throws (fun after => c.Extends after [] [] ∧
        after.readable = c.readable ++ remaining ∧
        (after.channel.isWriting = true ↔ c.channel.isWriting = true ∨ remaining ≠ []))
      (c.bufferRemaining remaining) := by
  unfold bufferRemaining
  split
  · rename_i some
    have nonempty : remaining ≠ [] := List.length_pos_iff.mp some
    have noticed := queueHighWaterMark_extends sound remaining.length
    apply (appendOutput_spec noticed.sound remaining small).bind
    rintro filled ⟨appended, bytes, channel⟩
    rw [queueHighWaterMark_readable] at bytes
    rw [queueHighWaterMark_channel] at channel
    have extended := noticed.trans appended
    split
    · rename_i writing
      refine ⟨extended, bytes, ?_⟩
      rw [channel] at writing ⊢
      simp [writing]
    · obtain ⟨after, enabled, watched, held, writing⟩ := enableWriting_ok extended.sound
      rw [enabled]
      exact ⟨extended.trans watched, held.trans bytes, by simp [writing, nonempty]⟩
  · rename_i none
    have empty : remaining = [] := by
      simpa using none
    exact ⟨Extends.refl sound, by simp [empty], by simp [empty]⟩

/-- Write interest stands exactly while output is buffered. -/
def Watched (c : TcpConnection) : Prop := c.channel.isWriting = true ↔ c.readable ≠ []

/-- On the direct path the kernel takes a prefix and the rest is buffered, unless the
error is one that gives it up. -/
theorem sendInLoop_direct (sound : c.Sound) (direct : c.canWriteDirectly = true)
    (data : ByteString) (result : IoResult) :
    Spec Buffer.Throws (fun after =>
        c.Extends after [] [.write (result.accepted data.bytes), .sendInLoop data.bytes] ∧
        after.Watched ∧ (result.givesUp = false →
          result.accepted data.bytes ++ after.readable = data.bytes))
      (c.sendInLoop data result) := by
  obtain ⟨idle, empty⟩ := (canWriteDirectly_iff sound).mp direct
  have started := emit_extends sound (.sendInLoop data.bytes) rfl
  have wrote := started.trans (emit_extends started.sound (.write (result.accepted data.bytes)) rfl)
  have split := result.accepted_prefix data.bytes
  have still : (c.emit (.sendInLoop data.bytes)).canWriteDirectly = true := direct
  unfold sendInLoop
  simp only [still, ↓reduceIte]
  cases result with
  | count n =>
      have small := data.drop_bounded (IoResult.accepted (.count n) data.bytes).length
      have noticed := wrote.trans (completeWrite_extends wrote.sound
        (data.bytes.drop (IoResult.accepted (.count n) data.bytes).length).length)
      apply (bufferRemaining_spec noticed.sound _ small).mono
      rintro after ⟨extended, bytes, writing⟩
      simp only [completeWrite_readable, completeWrite_channel] at bytes writing
      exact ⟨noticed.trans extended, by simp_all [Watched, emit], fun _ => by simp_all [emit]⟩
  | error errno =>
      dsimp only
      split
      · rename_i fault
        exact ⟨wrote, by simp_all [Watched, emit], fun goes => by
          simp_all [IoResult.givesUp]⟩
      · apply (bufferRemaining_spec wrote.sound _ data.bounded).mono
        rintro after ⟨extended, bytes, writing⟩
        exact ⟨wrote.trans extended, by simp_all [Watched, emit], fun _ => by
          simp_all [emit, IoResult.accepted]⟩

/-- Off the direct path everything is buffered. -/
theorem sendInLoop_buffered (sound : c.Sound) (indirect : c.canWriteDirectly = false)
    (data : ByteString) (result : IoResult) :
    Spec Buffer.Throws (fun after => c.Extends after [] [.sendInLoop data.bytes] ∧
        after.readable = c.readable ++ data.bytes ∧
        (after.channel.isWriting = true ↔ c.channel.isWriting = true ∨ data.bytes ≠ []))
      (c.sendInLoop data result) := by
  have started := emit_extends sound (.sendInLoop data.bytes) rfl
  have still : (c.emit (.sendInLoop data.bytes)).canWriteDirectly = false := indirect
  unfold sendInLoop
  simp only [still, Bool.false_eq_true, ↓reduceIte]
  apply (bufferRemaining_spec started.sound _ data.bounded).mono
  rintro after ⟨extended, bytes, writing⟩
  exact ⟨started.trans extended, bytes, writing⟩

/-- `sendInLoop` shows output only and queues no work. On a watched connection whose
kernel does not give up, what it is handed lands behind all earlier output. -/
theorem sendInLoop_spec (sound : c.Sound) (data : ByteString) (result : IoResult) :
    Spec Buffer.Throws (fun after => ∃ effects, c.Extends after [] effects ∧
        (∀ effect ∈ effects, effect.isOutput = true) ∧
        stream Effect.payload effects = data.bytes ∧
        (c.Watched → (c.canWriteDirectly = true → result.givesUp = false) → after.Watched ∧
          stream Effect.handed effects ++ after.readable = c.readable ++ data.bytes))
      (c.sendInLoop data result) := by
  by_cases direct : c.canWriteDirectly = true
  · obtain ⟨idle, empty⟩ := (canWriteDirectly_iff sound).mp direct
    apply (sendInLoop_direct sound direct data result).mono
    rintro after ⟨extended, watched, bytes⟩
    refine ⟨_, extended, by simp [Effect.isOutput], by simp [Effect.payload], ?_⟩
    intro _ goes
    refine ⟨watched, ?_⟩
    simp [Effect.handed, empty, bytes (goes direct)]
  · rw [Bool.not_eq_true] at direct
    apply (sendInLoop_buffered sound direct data result).mono
    rintro after ⟨extended, bytes, writing⟩
    refine ⟨_, extended, by simp [Effect.isOutput], by simp [Effect.payload], ?_⟩
    intro watched _
    refine ⟨?_, by simp [Effect.handed, bytes]⟩
    unfold Watched at watched ⊢
    rw [writing, bytes, watched]
    simp only [ne_eq, List.append_eq_nil_iff, not_and_or]

theorem requeueFile_extends (sound : c.Sound) (file : List UInt8) (offset remaining : Nat) :
    c.Extends (c.requeueFile file offset remaining) (fileSegment file offset remaining) [] := by
  unfold requeueFile
  split
  · exact queueInLoop_extends sound _ rfl
  · rename_i none
    rw [Nat.eq_zero_of_not_pos none, fileSegment_zero]
    exact Extends.refl sound

@[simp] theorem requeueFile_readable (c : TcpConnection) (file : List UInt8)
    (offset remaining : Nat) : (c.requeueFile file offset remaining).readable = c.readable := by
  unfold requeueFile
  split <;> rfl

@[simp] theorem requeueFile_channel (c : TcpConnection) (file : List UInt8)
    (offset remaining : Nat) : (c.requeueFile file offset remaining).channel = c.channel := by
  unfold requeueFile
  split <;> rfl

/-- What `sendFileInLoop` shows: a transfer when nothing is pending. -/
def fileEffects (c : TcpConnection) (segment : List UInt8) (result : IoResult) : List Effect :=
  if c.state = .kDisconnecting then []
  else if c.canWriteDirectly then [.sendfile (result.accepted segment)]
  else []

theorem fileEffects_isOutput (c : TcpConnection) (segment : List UInt8) (result : IoResult) :
    ∀ effect ∈ c.fileEffects segment result, effect.isOutput = true := by
  unfold fileEffects
  split
  · simp
  · split <;> simp [Effect.isOutput]

theorem fileEffects_handed (c : TcpConnection) (segment : List UInt8) (result : IoResult)
    (open' : c.state ≠ .kDisconnecting) :
    stream Effect.handed (c.fileEffects segment result) =
      if c.canWriteDirectly then result.accepted segment else [] := by
  simp only [fileEffects, open', ↓reduceIte]
  split <;> simp [Effect.handed]

/-- Files bypass the output buffer and the interest mask. -/
theorem sendFileInLoop_keeps (c : TcpConnection) (file : List UInt8) (offset count : Nat)
    (result : IoResult) :
    (c.sendFileInLoop file offset count result).readable = c.readable ∧
      (c.sendFileInLoop file offset count result).channel = c.channel := by
  unfold sendFileInLoop
  split
  · exact ⟨rfl, rfl⟩
  · split
    · cases result with
      | count n => simp [emit]
      | error errno =>
          dsimp only
          split <;> simp [emit]
    · simp

/-- `sendFileInLoop` hands over a prefix of its segment and queues the rest, unless the
connection is disconnecting with something to send, or the kernel gives up. -/
theorem sendFileInLoop_extends (sound : c.Sound) (file : List UInt8) (offset count : Nat)
    (result : IoResult) :
    ∃ left, c.Extends (c.sendFileInLoop file offset count result) left
        (c.fileEffects (fileSegment file offset count) result) ∧
      (c.state ≠ .kDisconnecting ∨ fileSegment file offset count = [] →
        result.givesUp = false →
        stream Effect.handed (c.fileEffects (fileSegment file offset count) result) ++ left =
          fileSegment file offset count) := by
  have wrote := emit_extends sound
    (.sendfile (result.accepted (fileSegment file offset count))) rfl
  have split := result.accepted_prefix (fileSegment file offset count)
  unfold sendFileInLoop fileEffects
  by_cases leaving : c.state = .kDisconnecting
  · simp only [leaving, ↓reduceIte]
    exact ⟨[], Extends.refl sound, by simp +contextual⟩
  · simp only [leaving, ↓reduceIte]
    by_cases direct : c.canWriteDirectly = true
    · simp only [direct, ↓reduceIte]
      cases result with
      | count n =>
          have noticed := wrote.trans (completeWrite_extends wrote.sound
            (count - (IoResult.accepted (.count n) (fileSegment file offset count)).length))
          have queued := noticed.trans (requeueFile_extends noticed.sound file
            (offset + (IoResult.accepted (.count n) (fileSegment file offset count)).length)
            (count - (IoResult.accepted (.count n) (fileSegment file offset count)).length))
          refine ⟨_, queued, fun _ _ => ?_⟩
          rw [fileSegment_drop]
          exact split
      | error errno =>
          dsimp only
          split
          · rename_i fault
            exact ⟨[], wrote, by simp_all [IoResult.givesUp]⟩
          · have queued := wrote.trans (requeueFile_extends wrote.sound file offset count)
            exact ⟨_, queued, by simp [Effect.handed, IoResult.accepted]⟩
    · simp only [direct, Bool.false_eq_true, ↓reduceIte]
      exact ⟨_, requeueFile_extends sound file offset count, by simp⟩

end TcpConnection

end KamaWebserver
