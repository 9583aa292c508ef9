import KamaWebserver.SendStream

set_option autoImplicit false

namespace KamaWebserver

open Outcome Trace Transition

namespace Effect

/-- A write-complete callback is queued. -/
def isNotice : Effect → Bool
  | .queueInLoop .writeComplete => true
  | _ => false

def isWrite : Effect → Bool
  | .write _ => true
  | _ => false

/-- The amount a high-water callback is queued with. -/
def highWater : Effect → List Nat
  | .queueInLoop (.highWaterMark pending) => [pending]
  | _ => []

end Effect

/-- Every byte given to `sendInLoop` has been handed to the kernel. -/
def AllHanded (trace : List Effect) : Prop :=
  stream Effect.handed trace = stream Effect.payload trace

/-- The last thing done is the write after which nothing is pending any more. -/
def JustDrained : List Effect → Prop
  | .write bytes :: earlier => ¬ AllHanded earlier ∧ AllHanded (.write bytes :: earlier)
  | _ => False

/-- The last thing done is a write that leaves nothing pending. -/
def JustWritten : List Effect → Prop
  | .write bytes :: earlier => AllHanded (.write bytes :: earlier)
  | _ => False

/-- A callback is queued directly behind a write that leaves nothing pending, and only there;
nothing else comes directly behind a write that drains. -/
structure Answered (trace : List Effect) : Prop where
  notices : AtEach (·.isNotice = true) JustWritten trace
  drains : AtEach (·.isNotice = false) (¬ JustDrained ·) trace

/-- No write waits for its callback. -/
structure Settled (trace : List Effect) : Prop where
  answered : Answered trace
  quiet : ¬ JustDrained trace

variable {trace : List Effect}

theorem Settled.cons (settled : Settled trace) {effect : Effect} (plain : effect.isNotice = false)
    (other : effect.isWrite = false) : Settled (effect :: trace) := by
  refine ⟨⟨⟨settled.answered.notices, fun notice => ?_⟩, settled.answered.drains,
    fun _ => settled.quiet⟩, ?_⟩
  · have same : effect.isNotice = true := notice
    rw [plain] at same
    cases same
  · cases effect with
    | write bytes => cases other
    | _ => exact not_false

theorem Settled.append (settled : Settled trace) {effects : List Effect}
    (plain : ∀ effect ∈ effects, effect.isNotice = false ∧ effect.isWrite = false) :
    Settled (effects ++ trace) := by
  induction effects with
  | nil => exact settled
  | cons effect effects ih =>
      have first := plain effect List.mem_cons_self
      exact (ih fun other inside => plain other (List.mem_cons_of_mem _ inside)).cons
        first.1 first.2

theorem Settled.write (settled : Settled trace) (bytes : List UInt8) :
    Answered (.write bytes :: trace) :=
  ⟨⟨settled.answered.notices, nofun⟩, settled.answered.drains, fun _ => settled.quiet⟩

/-- A write that leaves something pending, or takes nothing, waits for no callback. -/
theorem Settled.write_more (settled : Settled trace) {bytes : List UInt8}
    (more : bytes = [] ∨ ¬ AllHanded (.write bytes :: trace)) :
    Settled (.write bytes :: trace) := by
  refine ⟨settled.write bytes, ?_⟩
  rintro ⟨pending, handed⟩
  rcases more with rfl | more
  · exact pending (by simpa [AllHanded, Effect.handed, Effect.payload] using handed)
  · exact more handed

theorem Answered.notice (answered : Answered trace) (written : JustWritten trace) :
    Settled (.queueInLoop .writeComplete :: trace) :=
  ⟨⟨⟨answered.notices, fun _ => written⟩, answered.drains, nofun⟩, not_false⟩

theorem Settled.drained_answered {later earlier : List Effect} {bytes : List UInt8}
    (settled : Settled (later ++ .write bytes :: earlier))
    (drained : JustDrained (.write bytes :: earlier)) :
    ∃ rest, later = rest ++ [.queueInLoop .writeComplete] := by
  rcases List.eq_nil_or_concat later with rfl | ⟨rest, next, rfl⟩
  · exact absurd drained settled.quiet
  · have drains := settled.answered.drains
    rw [List.concat_eq_append, List.append_assoc] at drains
    cases notice : next.isNotice with
    | false => exact absurd drained (drains.split notice)
    | true =>
        refine ⟨rest, ?_⟩
        rw [List.concat_eq_append]
        congr 2
        unfold Effect.isNotice at notice
        split at notice
        · rfl
        · cases notice

namespace TcpConnection

/-- What a connection is set up with. -/
def settings (c : TcpConnection) : Nat × Bool × Bool :=
  (c.highWaterMark, c.writeCompleteCallback, c.highWaterMarkCallback)

variable {c after : TcpConnection}

section Settings

theorem updateEvents_settings {events : EventMask} (updated : c.updateEvents events = .ok after) :
    after.settings = c.settings ∧ after.trace = c.trace := by
  obtain ⟨pair, -, returned⟩ := (bind_ok_iff _ _ _).mp updated
  cases returned
  exact ⟨rfl, rfl⟩

theorem queueHighWaterMark_settings (c : TcpConnection) (remaining : Nat) :
    (c.queueHighWaterMark remaining).settings = c.settings := by
  unfold queueHighWaterMark
  dsimp only
  split <;> rfl

theorem completeWrite_settings (c : TcpConnection) (remaining : Nat) :
    (c.completeWrite remaining).settings = c.settings := by
  unfold completeWrite queueWriteComplete
  split
  · split <;> rfl
  · rfl

/-- What is buffered is told only through the high-water callback. -/
theorem bufferRemaining_settings {remaining : List UInt8}
    (buffered : c.bufferRemaining remaining = .ok after) :
    after.settings = c.settings ∧ after.trace =
      if 0 < remaining.length then (c.queueHighWaterMark remaining.length).trace else c.trace := by
  unfold bufferRemaining at buffered
  split at buffered
  · rename_i some
    obtain ⟨filled, appended, rest⟩ := (bind_ok_iff _ _ _).mp buffered
    obtain ⟨outputBuffer, -, returned⟩ := (bind_ok_iff _ _ _).mp appended
    have noticed := queueHighWaterMark_settings c remaining.length
    cases returned
    rw [if_pos some]
    split at rest
    · cases rest
      exact ⟨noticed, rfl⟩
    · obtain ⟨settings, trace⟩ := updateEvents_settings rest
      exact ⟨settings.trans noticed, trace⟩
  · rename_i none
    cases buffered
    exact ⟨rfl, (if_neg none).symm⟩

theorem handleClose_settings (closed : c.handleClose = .ok after) :
    after.settings = c.settings := by
  obtain ⟨down, disconnected, returned⟩ := (bind_ok_iff _ _ _).mp closed
  obtain ⟨quiet, disabled, same⟩ := (bind_ok_iff _ _ _).mp disconnected
  cases returned
  cases same
  exact (updateEvents_settings disabled).1

theorem readOnce_settings {result : ReadResult} {again : Bool}
    (read : c.readOnce result = .ok (after, again)) : after.settings = c.settings := by
  obtain ⟨⟨inputBuffer, outcome⟩, -, rest⟩ := (bind_ok_iff _ _ _).mp read
  have closed (ended : (handleClose { c with inputBuffer }).map (·, false) = .ok (after, again)) :
      after.settings = c.settings := by
    obtain ⟨down, closed, same⟩ := (map_ok_iff _ _ _).mp ended
    cases same
    have kept := handleClose_settings closed
    exact kept
  dsimp only at rest
  split at rest
  · exact closed rest
  · cases rest
    rfl
  · cases rest
    rfl
  · exact closed rest

theorem connectEstablished_settings (ran : c.connectEstablished = .ok after) :
    after.settings = c.settings := by
  obtain ⟨up, enabled, returned⟩ := (bind_ok_iff _ _ _).mp ran
  cases returned
  exact (updateEvents_settings enabled).1

/-- The callback comes first, the close of the write side after it. -/
theorem outputDrained_settings (complete : c.writeCompleteCallback = true)
    (drained : c.outputDrained = .ok after) :
    after.settings = c.settings ∧ ∃ closing, (closing = [] ∨ closing = [.shutdownWrite]) ∧
      after.trace = closing ++ .queueInLoop .writeComplete :: c.trace := by
  obtain ⟨quiet, disabled, returned⟩ := (bind_ok_iff _ _ _).mp drained
  obtain ⟨settings, trace⟩ := updateEvents_settings disabled
  have set : quiet.writeCompleteCallback = true :=
    (congrArg (fun set => set.2.1) settings).trans complete
  cases returned
  simp only [queueWriteComplete, set, ↓reduceIte, shutdownInLoop]
  split
  · split
    · exact ⟨settings, [], .inl rfl, by simp [queueInLoop, trace]⟩
    · exact ⟨settings, [.shutdownWrite], .inr rfl, by simp [queueInLoop, emit, trace]⟩
  · exact ⟨settings, [], .inl rfl, by simp [queueInLoop, trace]⟩

end Settings

/-- The amounts of which the application is told when the pending amount changes. -/
def crossing (mark before after : Nat) : List Nat :=
  if before < mark ∧ mark ≤ after then [after] else []

theorem crossing_of_le {mark before after : Nat} (less : after ≤ before) :
    crossing mark before after = [] := by
  unfold crossing
  split
  · omega
  · rfl

/-- Buffering tells of a crossing and of nothing else. -/
theorem bufferRemaining_trace (sound : c.Sound) (callback : c.highWaterMarkCallback = true)
    {remaining : List UInt8} (small : remaining.length ≤ maxSize)
    (buffered : c.bufferRemaining remaining = .ok after) :
    after.trace = (crossing c.highWaterMark c.readable.length after.readable.length).map
      (fun pending => .queueInLoop (.highWaterMark pending)) ++ c.trace := by
  obtain ⟨-, bytes, -⟩ := (bufferRemaining_spec sound remaining small).of_ok buffered
  have inside : c.readable.length ≤ maxSize := by
    have window := sound.output.readableBytes_eq
    have ends := sound.output.inside
    have bounded := sound.output.bounded
    rw [sound.output.readable_length]
    omega
  have sum : addSize c.outputBuffer.readableBytes remaining.length = after.readable.length := by
    rw [bytes, List.length_append, sound.readable_length]
    exact addSize_eq _ _ (by unfold maxSize at inside small; unfold sizeModulus; omega)
  rw [(bufferRemaining_settings buffered).2]
  split
  · unfold queueHighWaterMark crossing
    dsimp only
    rw [sum, sound.readable_length, callback]
    by_cases crosses : c.readable.length < c.highWaterMark ∧
        c.highWaterMark ≤ after.readable.length
    · simp [crosses, queueInLoop]
    · rw [if_neg (by tauto), if_neg crosses]
      rfl
  · rename_i none
    rw [crossing_of_le]
    · rfl
    · rw [bytes, List.length_append]
      omega

/-- Both callbacks are set, and no write waits for its callback. -/
structure Notifies (c : TcpConnection) (mark : Nat) : Prop where
  settings : c.settings = (mark, true, true)
  settled : Settled c.trace

/-- `after` has been told the crossings between the pending amount of `c` and its own. -/
structure Tells (c after : TcpConnection) (mark : Nat) : Prop where
  notifies : after.Notifies mark
  crossings : stream Effect.highWater after.trace = stream Effect.highWater c.trace ++
    crossing mark c.readable.length after.readable.length

variable {mark : Nat}

/-- A step that neither writes nor calls back, and does not make the pending amount grow. -/
theorem Notifies.plain (notifies : c.Notifies mark) (effects : List Effect)
    (settings : after.settings = c.settings) (shown : after.trace = effects ++ c.trace)
    (plain : ∀ effect ∈ effects, effect.isNotice = false ∧ effect.isWrite = false ∧
      effect.highWater = [])
    (less : after.readable.length ≤ c.readable.length) : c.Tells after mark where
  notifies :=
    ⟨settings.trans notifies.settings, shown ▸ notifies.settled.append fun effect inside =>
      ⟨(plain effect inside).1, (plain effect inside).2.1⟩⟩
  crossings := by
    have silent : stream Effect.highWater effects = [] :=
      stream_eq_nil fun effect inside => (plain effect inside).2.2
    rw [shown, stream_append, silent, crossing_of_le less]

theorem Notifies.tells (notifies : c.Notifies mark) : c.Tells c mark :=
  notifies.plain [] rfl rfl nofun (Nat.le_refl _)

theorem bufferRemaining_tells (sound : c.Sound) (notifies : c.Notifies mark)
    {remaining : List UInt8} (small : remaining.length ≤ maxSize)
    (buffered : c.bufferRemaining remaining = .ok after) : c.Tells after mark := by
  obtain ⟨height, complete, high⟩ :
      c.highWaterMark = mark ∧ c.writeCompleteCallback = true ∧ c.highWaterMarkCallback = true := by
    simpa [settings] using notifies.settings
  have trace := bufferRemaining_trace sound high small buffered
  refine ⟨⟨(bufferRemaining_settings buffered).1.trans notifies.settings, ?_⟩, ?_⟩
  · rw [trace]
    refine notifies.settled.append fun effect inside => ?_
    obtain ⟨pending, -, rfl⟩ := List.mem_map.mp inside
    exact ⟨rfl, rfl⟩
  · rw [trace, stream_append, height]
    unfold crossing
    split <;> simp [Effect.highWater]

/-- The pending amount is what is buffered. -/
theorem Streams.allHanded_iff (streams : c.Streams) : AllHanded c.trace ↔ c.readable = [] := by
  rw [AllHanded, ← streams.balance]
  exact List.self_eq_append_right

/-- A direct write on an empty buffer leaves nothing pending exactly when it takes all. -/
theorem direct_allHanded_iff (streams : c.Streams) (empty : c.readable = [])
    (data wrote : List UInt8) :
    AllHanded (.write wrote :: .sendInLoop data :: c.trace) ↔ wrote = data := by
  have clear : stream Effect.handed c.trace = stream Effect.payload c.trace :=
    streams.allHanded_iff.mpr empty
  simp [AllHanded, Effect.handed, Effect.payload, clear]

/-- The write of the direct path, and the callback when it takes everything. -/
theorem completeWrite_notifies (streams : c.Streams) (notifies : c.Notifies mark)
    (empty : c.readable = []) (data wrote : List UInt8)
    (part : wrote ++ data.drop wrote.length = data) :
    (((c.emit (.sendInLoop data)).emit (.write wrote)).completeWrite
      (data.drop wrote.length).length).Notifies mark := by
  have settings := completeWrite_settings ((c.emit (.sendInLoop data)).emit (.write wrote))
    (data.drop wrote.length).length
  have started : Settled (.sendInLoop data :: c.trace) := notifies.settled.cons rfl rfl
  refine ⟨settings.trans notifies.settings, ?_⟩
  have complete : c.writeCompleteCallback = true := by
    have set := notifies.settings
    simp only [TcpConnection.settings, Prod.mk.injEq] at set
    exact set.2.1
  unfold completeWrite
  split
  · rename_i nothing
    rw [List.length_eq_zero_iff] at nothing
    have all : wrote = data := by simpa [nothing] using part
    have written : JustWritten (.write wrote :: .sendInLoop data :: c.trace) :=
      (direct_allHanded_iff streams empty data wrote).mpr all
    simp only [queueWriteComplete, emit, complete, ↓reduceIte]
    exact (started.write wrote).notice written
  · rename_i more
    refine started.write_more (.inr fun handed => more ?_)
    rw [(direct_allHanded_iff streams empty data wrote).mp handed, List.drop_length,
      List.length_nil]

theorem completeWrite_highWater (c : TcpConnection) (remaining : Nat) :
    stream Effect.highWater (c.completeWrite remaining).trace =
      stream Effect.highWater c.trace := by
  unfold completeWrite queueWriteComplete
  split
  · split
    · simp [queueInLoop, Effect.highWater]
    · rfl
  · rfl

theorem sendInLoop_tells (streams : c.Streams) (notifies : c.Notifies mark) {data : ByteString}
    {result : IoResult} (kept : c.canWriteDirectly = true → result.givesUp = false)
    (ran : c.sendInLoop data result = .ok after) : c.Tells after mark := by
  have sound := streams.sound.emit (.sendInLoop data.bytes)
  unfold sendInLoop at ran
  dsimp only at ran
  split at ran
  · rename_i direct
    obtain ⟨-, empty⟩ := (canWriteDirectly_iff streams.sound).mp direct
    have wrote := sound.emit (.write (result.accepted data.bytes))
    have part := result.accepted_prefix data.bytes
    cases result with
    | count n =>
        have small := data.drop_bounded (IoResult.accepted (.count n) data.bytes).length
        obtain ⟨notified, crossings⟩ := bufferRemaining_tells
          (completeWrite_extends wrote _).sound
          (completeWrite_notifies streams notifies empty data.bytes _ part) small ran
        refine ⟨notified, crossings.trans ?_⟩
        rw [completeWrite_highWater, completeWrite_readable]
        simp [emit, Effect.highWater]
    | error errno =>
        have goes : faultError errno = false := kept direct
        simp only [goes, Bool.false_eq_true, ↓reduceIte] at ran
        have started : Settled (.sendInLoop data.bytes :: c.trace) :=
          notifies.settled.cons rfl rfl
        have written : (((c.emit (.sendInLoop data.bytes)).emit
            (.write (IoResult.accepted (.error errno) data.bytes)))).Notifies mark :=
          ⟨notifies.settings, started.write_more (.inl rfl)⟩
        obtain ⟨notified, crossings⟩ := bufferRemaining_tells wrote written data.bounded ran
        refine ⟨notified, crossings.trans ?_⟩
        simp [emit, Effect.highWater]
  · have started : (c.emit (.sendInLoop data.bytes)).Notifies mark :=
      ⟨notifies.settings, notifies.settled.cons rfl rfl⟩
    obtain ⟨notified, crossings⟩ := bufferRemaining_tells sound started data.bounded ran
    refine ⟨notified, crossings.trans ?_⟩
    simp [emit, Effect.highWater]

theorem Streams.writeOnce (streams : c.Streams) {result : IoResult} {again : Bool}
    (wrote : c.writeOnce result = .ok (after, again)) : after.Streams := by
  obtain ⟨next, more, effects, returned, extended, -, payload, taken, rest, -, watched, -⟩ :=
    writeOnce_spec streams.sound result
  cases returned.symm.trans wrote
  have part := result.accepted_prefix c.readable
  refine ⟨extended.sound, watched streams.watched, ?_⟩
  rw [extended.stream _ fun _ => rfl, extended.stream _ fun _ => rfl, List.append_assoc, taken,
    rest, part, streams.balance, payload, List.append_nil]

/-- A step in which the pending amount does not grow. -/
structure Calms (c after : TcpConnection) (mark : Nat) : Prop where
  notifies : after.Notifies mark
  silent : stream Effect.highWater after.trace = stream Effect.highWater c.trace
  less : after.readable.length ≤ c.readable.length

theorem Calms.tells (calms : c.Calms after mark) : c.Tells after mark :=
  ⟨calms.notifies, by rw [calms.silent, crossing_of_le calms.less, List.append_nil]⟩

theorem Calms.trans {middle : TcpConnection} (first : c.Calms middle mark)
    (second : middle.Calms after mark) : c.Calms after mark :=
  ⟨second.notifies, second.silent.trans first.silent, second.less.trans first.less⟩

/-- A write from the buffer leaves nothing pending exactly when it takes all of it. -/
theorem buffered_allHanded_iff (streams : c.Streams) (bytes : List UInt8) :
    AllHanded (.write bytes :: c.trace) ↔ bytes = c.readable := by
  simp [AllHanded, Effect.handed, Effect.payload, ← streams.balance]

/-- The write that empties the buffer is answered by the callback. -/
theorem outputDrained_calms (streams : c.Streams) (notifies : c.Notifies mark)
    {bytes : List UInt8} {count : Nat} (all : bytes = c.readable)
    (drained : ((c.emit (.write bytes)).retrieveOutput count).outputDrained = .ok after) :
    c.Calms after mark := by
  have written : JustWritten (.write bytes :: c.trace) :=
    (buffered_allHanded_iff streams bytes).mpr all
  have answered := (notifies.settled.write bytes).notice written
  have complete : ((c.emit (.write bytes)).retrieveOutput count).writeCompleteCallback = true :=
    congrArg (fun set => set.2.1) notifies.settings
  obtain ⟨moved, rest⟩ := retrieveOutput_extends (streams.sound.emit (.write bytes)) count
  obtain ⟨settings, closing, only, trace⟩ := outputDrained_settings complete drained
  obtain ⟨final, returned, extended, held, -⟩ := outputDrained_ok moved.sound
  cases returned.symm.trans drained
  refine ⟨⟨settings.trans notifies.settings, ?_⟩, ?_, ?_⟩
  · rw [trace]
    refine answered.append fun effect inside => ?_
    rcases only with rfl | rfl
    · cases inside
    · obtain rfl := List.mem_singleton.mp inside
      exact ⟨rfl, rfl⟩
  · rw [trace]
    rcases only with rfl | rfl <;> simp [retrieveOutput, emit, Effect.highWater]
  · rw [held, rest, List.length_drop]
    exact Nat.sub_le _ _

theorem writeOnce_calms (streams : c.Streams) (notifies : c.Notifies mark) {result : IoResult}
    {again : Bool} (wrote : c.writeOnce result = .ok (after, again)) : c.Calms after mark := by
  have idle : (c.emit (.write [])).Notifies mark :=
    ⟨notifies.settings, notifies.settled.write_more (.inl rfl)⟩
  have silent (bytes : List UInt8) : stream Effect.highWater (c.emit (.write bytes)).trace =
      stream Effect.highWater c.trace := by
    simp [emit, Effect.highWater]
  simp only [writeOnce, Buffer.writeFd_eq streams.sound.output] at wrote
  cases result with
  | error errno =>
      cases wrote
      exact ⟨idle, silent [], Nat.le_refl _⟩
  | count n =>
      by_cases none : c.readable.take n = []
      · simp only [none, bind, Except.bind] at wrote
        cases wrote
        exact ⟨idle, silent [], Nat.le_refl _⟩
      · obtain ⟨k, length⟩ := Nat.exists_eq_succ_of_ne_zero
          (fun zero => none (List.length_eq_zero_iff.mp zero))
        obtain ⟨moved, bytes⟩ := retrieveOutput_extends
          (streams.sound.emit (.write (c.readable.take n))) (k + 1)
        have rest : ((c.emit (.write (c.readable.take n))).retrieveOutput
            (k + 1)).outputBuffer.readableBytes = c.readable.length - (k + 1) := by
          rw [moved.sound.readable_length, bytes, List.length_drop]
          rfl
        have shorter : (k + 1) ≤ c.readable.length := by
          rw [← Nat.succ_eq_add_one, ← length]
          exact List.length_take_le' n c.readable
        simp only [bind, Except.bind, length, Nat.succ_eq_add_one, rest] at wrote
        split at wrote
        · rename_i drained
          have all : c.readable.take n = c.readable := by
            apply (List.take_prefix n c.readable).eq_of_length
            rw [length]
            omega
          obtain ⟨quiet, emptied, same⟩ := (map_ok_iff _ _ _).mp wrote
          cases same
          exact outputDrained_calms streams notifies all emptied
        · rename_i more
          cases wrote
          have some : ¬ AllHanded (.write (c.readable.take n) :: c.trace) := by
            rw [buffered_allHanded_iff streams]
            intro all
            rw [all] at length
            omega
          refine ⟨⟨notifies.settings, notifies.settled.write_more (.inr some)⟩,
            silent (c.readable.take n), ?_⟩
          rw [bytes, List.length_drop]
          exact Nat.sub_le _ _

theorem handleWriteLoop_calms (streams : c.Streams) (notifies : c.Notifies mark)
    (results : List IoResult) (wrote : c.handleWriteLoop results = .ok after) :
    c.Calms after mark := by
  induction results generalizing c with
  | nil =>
      obtain ⟨⟨last, again⟩, once, returned⟩ := (bind_ok_iff _ _ _).mp wrote
      cases returned
      exact writeOnce_calms streams notifies once
  | cons result results ih =>
      obtain ⟨⟨middle, again⟩, once, rest⟩ := (bind_ok_iff _ _ _).mp wrote
      have calms := writeOnce_calms streams notifies once
      dsimp only at rest
      split at rest
      · exact calms.trans (ih (streams.writeOnce once) calms.notifies rest)
      · cases rest
        exact calms

theorem handleWrite_tells (streams : c.Streams) (notifies : c.Notifies mark)
    {results : List IoResult} (wrote : c.handleWrite results = .ok after) :
    c.Tells after mark := by
  unfold handleWrite at wrote
  split at wrote
  · exact (handleWriteLoop_calms streams notifies results wrote).tells
  · cases wrote
    exact notifies.tells

/-- A functor that is neither of the two callbacks. -/
theorem Notifies.queueInLoop (notifies : c.Notifies mark) {functor : Functor}
    (plain : (Effect.queueInLoop functor).isNotice = false)
    (other : (Effect.queueInLoop functor).highWater = []) :
    c.Tells (c.queueInLoop functor) mark :=
  notifies.plain [.queueInLoop functor] rfl rfl
    (fun effect inside => by
      obtain rfl := List.mem_singleton.mp inside
      exact ⟨plain, rfl, other⟩) (Nat.le_refl _)

theorem Notifies.shutdownInLoop (notifies : c.Notifies mark) :
    c.Tells c.shutdownInLoop mark := by
  unfold TcpConnection.shutdownInLoop
  split
  · exact notifies.tells
  · exact notifies.plain [.shutdownWrite] rfl rfl
      (by simp [Effect.isNotice, Effect.isWrite, Effect.highWater]) (Nat.le_refl _)

theorem readOnce_tells (streams : c.Streams) (notifies : c.Notifies mark) {result : ReadResult}
    {again : Bool} (goes : c.closesOnRead result = false)
    (read : c.readOnce result = .ok (after, again)) : c.Tells after mark := by
  obtain ⟨-, -, -, outputBuffer, -, -, trace⟩ :=
    (readOnce_keeps streams.sound result goes).of_ok read
  have settings := readOnce_settings read
  have less : after.readable.length ≤ c.readable.length := by
    rw [show after.readable = c.readable from congrArg Buffer.readable outputBuffer]
  rcases trace with same | grown
  · exact notifies.plain [] settings same nofun less
  · exact notifies.plain [.messageCallback] settings grown
      (by simp [Effect.isNotice, Effect.isWrite, Effect.highWater]) less

theorem connectEstablished_tells (streams : c.Streams) (notifies : c.Notifies mark)
    (ran : c.connectEstablished = .ok after) : c.Tells after mark := by
  obtain ⟨next, returned, switched, -⟩ := connectEstablished_ok streams.sound
  cases returned.symm.trans ran
  refine notifies.plain _ (connectEstablished_settings ran) switched.trace
    (by simp [Effect.isNotice, Effect.isWrite, Effect.highWater]) ?_
  rw [show after.readable = c.readable from congrArg Buffer.readable switched.outputBuffer]

/-- What has been accepted and is not handed over yet. -/
def pending (c : TcpConnection) : Nat :=
  (stream Effect.payload c.trace).length - (stream Effect.handed c.trace).length

theorem Streams.pending_eq (streams : c.Streams) : c.pending = c.readable.length := by
  rw [pending, ← streams.balance, List.length_append, Nat.add_sub_cancel_left]

end TcpConnection

namespace Session

variable {s after : Session} {mark : Nat}

theorem advance_tells (notifies : s.conn.Notifies mark) {index : Nat}
    (taken : s.advance index = .ok after) : s.conn.Tells after.conn mark := by
  obtain ⟨call, -, rfl⟩ := advance_ok taken
  cases call with
  | queueSend data => exact notifies.queueInLoop rfl rfl
  | queueSendFile file offset count => exact notifies.queueInLoop rfl rfl
  | storeDisconnecting => exact notifies.plain [] rfl rfl nofun (Nat.le_refl _)
  | queueShutdown => exact notifies.queueInLoop rfl rfl

/-- Every step of a session that only sends keeps both callbacks right. -/
theorem step_tells {event : SessionEvent} (streams : s.conn.Streams)
    (notifies : s.conn.Notifies mark) (guarded : s.SendOnly event)
    (taken : s.step event = .ok after) : s.conn.Tells after.conn mark := by
  cases step_inv taken with
  | handleEvent revents idle between seen => exact notifies.tells
  | handleClose rest conn waiting closed => exact guarded.elim
  | handleError rest conn waiting closed => exact guarded.elim
  | handleRead result rest conn again waiting read =>
      exact TcpConnection.readOnce_tells streams notifies guarded read
  | handleWrite results rest conn waiting wrote =>
      exact TcpConnection.handleWrite_tells streams notifies wrote
  | doPendingFunctors idle between =>
      exact notifies.plain [] rfl rfl nofun (Nat.le_refl _)
  | runFunctor result functor functors conn batch ran =>
      obtain ⟨noDestroy, noFile, kept⟩ := guarded
      rw [batch] at noDestroy noFile
      have popped : (s.conn.setBatch functors).Streams :=
        streams.of_idle (streams.sound.setBatch functors) rfl rfl rfl rfl
      have same : (s.conn.setBatch functors).Notifies mark := ⟨notifies.settings, notifies.settled⟩
      have told : (s.conn.setBatch functors).Tells conn mark := by
        cases functor with
        | connectEstablished => exact TcpConnection.connectEstablished_tells popped same ran
        | connectDestroyed => exact absurd rfl noDestroy
        | sendInLoop data => exact TcpConnection.sendInLoop_tells popped same kept ran
        | sendFileInLoop file offset count => exact absurd rfl (noFile file offset count)
        | shutdownInLoop =>
            cases ran
            exact same.shutdownInLoop
        | writeComplete =>
            cases ran
            exact same.tells
        | highWaterMark pending =>
            cases ran
            exact same.tells
      exact ⟨told.notifies, told.crossings⟩
  | retrieve len => exact notifies.plain [] rfl rfl nofun (Nat.le_refl _)
  | send data result conn up ran =>
      have accepted : (s.conn.emit (.accept data.bytes)).Streams := streams.emit rfl rfl
      have began : (s.conn.emit (.accept data.bytes)).Notifies mark :=
        ⟨notifies.settings, notifies.settled.cons rfl rfl⟩
      obtain ⟨told, crossings⟩ := TcpConnection.sendInLoop_tells accepted began guarded ran
      refine ⟨told, crossings.trans ?_⟩
      simp [TcpConnection.emit, Effect.highWater]
  | sendRefused data result down => exact notifies.tells
  | sendFile file offset count result between middle up other => exact guarded.elim
  | sendFileRefused file offset count result between down => exact notifies.tells
  | shutdown up =>
      have leaving : (s.conn.setState .kDisconnecting).Notifies mark :=
        ⟨notifies.settings, notifies.settled⟩
      obtain ⟨told, crossings⟩ := leaving.shutdownInLoop
      exact ⟨told, crossings⟩
  | shutdownRefused down => exact notifies.tells
  | other call up first =>
      have begun (payload : List UInt8) :
          s.conn.Tells (s.conn.emit (.accept payload)) mark :=
        notifies.plain [.accept payload] rfl rfl
          (by simp [Effect.isNotice, Effect.isWrite, Effect.highWater]) (Nat.le_refl _)
      cases call with
      | queueSend data => exact begun _
      | queueSendFile file offset count => exact begun _
      | storeDisconnecting => exact notifies.tells
      | queueShutdown => exact notifies.tells
  | advance index _ moved => exact advance_tells notifies moved
  | storeOverwritten index found down => exact notifies.tells
  | removeConnectionInLoop closed => exact notifies.queueInLoop rfl rfl
  | destroyHere conn tabled idle ran => cases guarded
  | destroyElsewhere tabled => exact notifies.queueInLoop rfl rfl

/-- A connection on which both callbacks are set. -/
def notifyingConfig (self fd mark : Nat) : Config := ⟨self, fd, mark, true, true⟩

theorem start_notifies (self fd mark : Nat) :
    (start (notifyingConfig self fd mark)).conn.Notifies mark :=
  ⟨rfl, ⟨⟨⟨trivial, nofun⟩, ⟨trivial, fun _ => not_false⟩⟩, not_false⟩⟩

/-- A write-complete callback is queued only directly behind a write that leaves nothing
pending, and one is queued behind each write that drains what was pending; a high-water
callback is queued in exactly the steps in which the pending amount reaches the mark from
below, with that amount. -/
theorem output_notices (self fd mark : Nat) (events : List SessionEvent) (s : Session)
    (sends : Guarded step SendOnly (start (notifyingConfig self fd mark)) events)
    (reached : run step (start (notifyingConfig self fd mark)) events = .ok s) :
    (∀ later earlier, s.conn.trace = later ++ .queueInLoop .writeComplete :: earlier →
      JustWritten earlier) ∧
    (∀ later bytes earlier, s.conn.trace = later ++ .write bytes :: earlier →
      JustDrained (.write bytes :: earlier) →
        ∃ rest, later = rest ++ [.queueInLoop .writeComplete]) ∧
    ∀ event after, s.SendOnly event → s.step event = .ok after →
      stream Effect.highWater after.conn.trace = stream Effect.highWater s.conn.trace ++
        TcpConnection.crossing mark s.conn.pending after.conn.pending := by
  obtain ⟨streams, notifies⟩ := run_preserves
    (fun s : Session => s.conn.Streams ∧ s.conn.Notifies mark)
    (fun _ _ _ kept guarded taken => ⟨streams_step kept.1 guarded taken,
      (step_tells kept.1 kept.2 guarded taken).notifies⟩)
    ⟨start_streams _, start_notifies self fd mark⟩ sends reached
  have settled := notifies.settled
  refine ⟨fun later earlier same => ?_, fun later bytes earlier same drained => ?_,
    fun event after guarded taken => ?_⟩
  · rw [same] at settled
    exact settled.answered.notices.split rfl
  · rw [same] at settled
    exact settled.drained_answered drained
  · rw [streams.pending_eq, (streams_step streams guarded taken).pending_eq]
    exact (step_tells streams notifies guarded taken).crossings

/-- A short direct write that reaches the mark, and the write that drains the rest. -/
theorem output_notices_drained :
    ∃ s, run step (start (notifyingConfig 1 7 2)) [.send ⟨[1, 2, 3], by decide⟩ (.count 1),
        .handleEvent EPOLLOUT, .handleWrite [.count 2]] = .ok s ∧
      s.conn.pendingFunctors = [.highWaterMark 2, .writeComplete] ∧
      (∀ later earlier, s.conn.trace = later ++ .queueInLoop .writeComplete :: earlier →
        JustWritten earlier) ∧
      (∀ later bytes earlier, s.conn.trace = later ++ .write bytes :: earlier →
        JustDrained (.write bytes :: earlier) →
          ∃ rest, later = rest ++ [.queueInLoop .writeComplete]) ∧
      ∀ event after, s.SendOnly event → s.step event = .ok after →
        stream Effect.highWater after.conn.trace = stream Effect.highWater s.conn.trace ++
          TcpConnection.crossing 2 s.conn.pending after.conn.pending := by
  obtain ⟨s, reached, queued⟩ := (map_ok_iff _ _ _).mp
    (show (run step (start (notifyingConfig 1 7 2)) [.send ⟨[1, 2, 3], by decide⟩ (.count 1),
      .handleEvent EPOLLOUT, .handleWrite [.count 2]]).map (fun s => s.conn.pendingFunctors) =
        .ok [.highWaterMark 2, .writeComplete] by decide +kernel)
  refine ⟨s, reached, queued, output_notices 1 7 2 _ s (guarded_of_forall ?_ _) reached⟩
  intro event inside state
  simp only [List.mem_cons, List.not_mem_nil, or_false] at inside
  rcases inside with rfl | rfl | rfl
  · exact fun _ => rfl
  · trivial
  · trivial

end Session

end KamaWebserver
