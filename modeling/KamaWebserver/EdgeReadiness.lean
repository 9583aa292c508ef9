import KamaWebserver.EdgeTriggered

set_option autoImplicit false

namespace KamaWebserver

open Outcome Transition

namespace TcpConnection

/-- epoll reports input. -/
structure Shown (c : TcpConnection) : Prop where
  added : c.channel.index = .kAdded
  reading : c.channel.events.getLsbD 0 = true

/-- Nothing is watched for writing without output. -/
def Pending (c : TcpConnection) : Prop := c.channel.isWriting = true → c.readable ≠ []

/-- `handleClose` has not run. -/
def Alive (c : TcpConnection) : Prop := .closeCallback ∉ c.trace

/-- What a connection that is open has in common with what it becomes. -/
structure Tends (c after : TcpConnection) : Prop where
  known : after.Known
  pending : c.Pending → after.Pending
  alive : after.Alive → c.Alive
  shown : after.Alive → c.Shown → after.Shown
  watched : after.Alive → c.Watched → after.Watched

variable {c : TcpConnection}

theorem Shown.of_channel {after : TcpConnection} (shown : c.Shown)
    (same : after.channel = c.channel) : after.Shown :=
  ⟨same ▸ shown.added, same ▸ shown.reading⟩

/-- Nothing that was seen is forgotten. -/
theorem Extends.alive {after : TcpConnection} {left : List UInt8} {effects : List Effect}
    (extended : c.Extends after left effects) (alive : after.Alive) : c.Alive := by
  intro closed
  have seen : .closeCallback ∈ after.visible := by
    rw [extended.visible]
    exact List.mem_append_right _ (List.mem_filter.mpr ⟨closed, rfl⟩)
  exact alive (List.mem_of_mem_filter seen)

theorem alive_of_emit {effect : Effect} (alive : (c.emit effect).Alive) : c.Alive :=
  fun closed => alive (List.mem_cons_of_mem _ closed)

theorem Known.sound (known : c.Known) : c.Sound := by
  refine ⟨known.input, known.output, ?_⟩
  unfold EPollPoller.Agrees
  rw [known.registered.interest]
  split <;> simp [*]

/-- A mask that asks for input gets the descriptor registered. -/
theorem updateEvents_shown (known : c.Known) {events : EventMask}
    (reading : events.getLsbD 0 = true) :
    Spec Buffer.Throws Shown (c.updateEvents events) := by
  obtain ⟨poller, updated, -, -⟩ :=
    EPollPoller.updateChannel_registered known.registered events
  have some : events ≠ kNoneEvent := by
    intro none
    rw [none] at reading
    cases reading
  simp only [updateEvents, updated, bind, Except.bind, pure, Except.pure, spec_ok]
  refine ⟨?_, reading⟩
  simp [EPollPoller.nextIndex, some]

theorem bufferRemaining_shown (known : c.Known) (shown : c.Shown) (remaining : List UInt8)
    (small : remaining.length ≤ maxSize) :
    Spec Buffer.Throws Shown (c.bufferRemaining remaining) := by
  unfold bufferRemaining
  split
  · have noticed := known.queueHighWaterMark remaining.length
    apply ((appendOutput_keeps noticed.known remaining small).and
      (appendOutput_spec noticed.known.sound remaining small)).bind
    intro filled appended
    have channel : filled.channel = c.channel :=
      appended.2.2.2.trans (queueHighWaterMark_channel c _)
    have kept : filled.Shown := shown.of_channel channel
    split
    · exact kept
    · apply updateEvents_shown appended.1.known
      rw [BitVec.getLsbD_or, kept.reading, Bool.true_or]
  · exact shown

theorem sendInLoop_shown (known : c.Known) (shown : c.Shown) (data : ByteString)
    (result : IoResult) : Spec Buffer.Throws Shown (c.sendInLoop data result) := by
  have started := known.emit (.sendInLoop data.bytes)
  have wrote := started.trans (started.known.emit (.write (result.accepted data.bytes)))
  unfold sendInLoop
  dsimp only
  split
  · cases result with
    | count n =>
        have small := data.drop_bounded (IoResult.accepted (.count n) data.bytes).length
        have noticed := wrote.trans (wrote.known.completeWrite
          (data.bytes.drop (IoResult.accepted (.count n) data.bytes).length).length)
        exact bufferRemaining_shown noticed.known
          (shown.of_channel (completeWrite_channel _ _)) _ small
    | error errno =>
        dsimp only
        split
        · exact shown.of_channel rfl
        · exact bufferRemaining_shown wrote.known (shown.of_channel rfl) _ data.bounded
  · exact bufferRemaining_shown started.known (shown.of_channel rfl) _ data.bounded

theorem outputDrained_shown (known : c.Known) (shown : c.Shown) :
    Spec Buffer.Throws Shown c.outputDrained := by
  have reading : (c.channel.events &&& ~~~ kWriteEvent).getLsbD 0 = true := by
    simp [shown.reading, kWriteEvent, EPOLLOUT]
  unfold outputDrained disableWriting
  apply (updateEvents_shown known reading).bind
  intro quiet kept
  dsimp only
  have noticed := queueWriteComplete_channel quiet
  split
  · exact kept.of_channel ((shutdownInLoop_channel _).trans noticed)
  · exact kept.of_channel noticed

theorem writeOnce_shown (known : c.Known) (shown : c.Shown) (result : IoResult) :
    Spec Buffer.Throws (fun after => after.1.Shown) (c.writeOnce result) := by
  obtain ⟨⟨bytes, outcome⟩, returned⟩ :
      ∃ answer, c.outputBuffer.writeFd result = .ok answer :=
    ⟨_, Buffer.writeFd_eq known.output result⟩
  have wrote := known.emit (.write bytes)
  simp only [writeOnce, returned, bind, Except.bind]
  split
  · exact shown.of_channel rfl
  · exact shown.of_channel rfl
  · rename_i n nonzero
    have taken : c.Keeps ((c.emit (.write bytes)).retrieveOutput n) :=
      wrote.trans (wrote.known.keeps rfl rfl rfl (wrote.known.output.retrieve n).1)
    split
    · exact (outputDrained_shown taken.known (shown.of_channel rfl)).map fun _ kept => kept
    · exact shown.of_channel rfl

/-- Output is watched for until it is gone. -/
theorem sendInLoop_tends (known : c.Known) (data : ByteString) (result : IoResult) :
    Spec Buffer.Throws c.Tends (c.sendInLoop data result) := by
  have kept := sendInLoop_keeps known data result
  cases returned : c.sendInLoop data result with
  | error fault =>
      rw [returned] at kept
      exact kept
  | ok after =>
      rw [returned] at kept
      have known' : after.Known := kept.known
      obtain ⟨effects, extended, -⟩ := (sendInLoop_spec known.sound data result).of_ok returned
      have alive : after.Alive → c.Alive := extended.alive
      have shown := fun (_ : after.Alive) shown =>
        (sendInLoop_shown known shown data result).of_ok returned
      by_cases direct : c.canWriteDirectly = true
      · obtain ⟨-, watched, -⟩ := (sendInLoop_direct known.sound direct data result).of_ok returned
        exact ⟨known', fun _ => watched.mp, alive, shown, fun _ _ => watched⟩
      · rw [Bool.not_eq_true] at direct
        obtain ⟨-, bytes, writing⟩ :=
          (sendInLoop_buffered known.sound direct data result).of_ok returned
        have grown : after.readable ≠ [] ↔ c.readable ≠ [] ∨ data.bytes ≠ [] := by
          rw [bytes, ne_eq, List.append_eq_nil_iff, not_and_or]
        refine ⟨known', fun pending => ?_, alive, shown, fun _ watched => ?_⟩
        · unfold Pending at pending ⊢
          rw [writing, grown]
          exact Or.imp_left pending
        · unfold Watched at watched ⊢
          rw [writing, grown, watched]

theorem Tends.trans {middle after : TcpConnection} (first : c.Tends middle)
    (second : middle.Tends after) : c.Tends after where
  known := second.known
  pending := fun pending => second.pending (first.pending pending)
  alive := fun alive => first.alive (second.alive alive)
  shown := fun alive shown => second.shown alive (first.shown (second.alive alive) shown)
  watched := fun alive watched => second.watched alive (first.watched (second.alive alive) watched)

/-- A function that leaves the channel and the output alone. -/
theorem Known.tends (known : c.Known) {after : TcpConnection} (poller : after.poller = c.poller)
    (channel : after.channel = c.channel) (input : after.inputBuffer.Valid)
    (output : after.outputBuffer = c.outputBuffer) (alive : after.Alive → c.Alive) :
    c.Tends after where
  known := ⟨poller ▸ channel ▸ known.registered, input, output ▸ known.output⟩
  pending := by
    unfold Pending readable
    rw [channel, output]
    exact id
  alive := alive
  shown := fun _ shown => shown.of_channel channel
  watched := by
    intro _
    unfold Watched readable
    rw [channel, output]
    exact id

theorem send_tends (known : c.Known) (data : ByteString) (result : IoResult) :
    Spec Buffer.Throws c.Tends (c.send data result) := by
  unfold send
  split
  · have accepted : c.Tends (c.emit (.accept data.bytes)) :=
      known.tends rfl rfl known.input rfl alive_of_emit
    exact (sendInLoop_tends accepted.known data result).mono fun _ sent => accepted.trans sent
  · exact known.tends rfl rfl known.input rfl id

theorem shutdownInLoop_tends (known : c.Known) : c.Tends c.shutdownInLoop := by
  unfold shutdownInLoop
  split
  · exact known.tends rfl rfl known.input rfl id
  · exact known.tends rfl rfl known.input rfl alive_of_emit

/-- `shutdown` leaves a connection open. -/
theorem shutdown_tends (known : c.Known) : c.Tends c.shutdown := by
  unfold shutdown
  split
  · rename_i up
    have leaving : c.Tends (c.setState .kDisconnecting) :=
      known.tends rfl rfl known.input rfl id
    exact leaving.trans (shutdownInLoop_tends leaving.known)
  · exact known.tends rfl rfl known.input rfl id

theorem Known.emit_tends (known : c.Known) (effect : Effect) : c.Tends (c.emit effect) :=
  known.tends rfl rfl known.input rfl alive_of_emit

theorem completeWrite_tends (known : c.Known) (remaining : Nat) :
    c.Tends (c.completeWrite remaining) := by
  unfold completeWrite queueWriteComplete
  split
  · split
    · exact known.tends rfl rfl known.input rfl alive_of_emit
    · exact known.tends rfl rfl known.input rfl id
  · exact known.tends rfl rfl known.input rfl id

theorem requeueFile_tends (known : c.Known) (file : List UInt8) (offset remaining : Nat) :
    c.Tends (c.requeueFile file offset remaining) := by
  unfold requeueFile
  split
  · exact known.tends rfl rfl known.input rfl alive_of_emit
  · exact known.tends rfl rfl known.input rfl id

theorem sendFileInLoop_tends (known : c.Known) (file : List UInt8) (offset count : Nat)
    (result : IoResult) : c.Tends (c.sendFileInLoop file offset count result) := by
  have sent := known.emit_tends (.sendfile (result.accepted (fileSegment file offset count)))
  unfold sendFileInLoop
  split
  · exact known.tends rfl rfl known.input rfl id
  · split
    · cases result with
      | count n =>
          apply sent.trans
          have noticed := completeWrite_tends sent.known
            (count - (IoResult.accepted (.count n) (fileSegment file offset count)).length)
          exact noticed.trans (requeueFile_tends noticed.known file _ _)
      | error errno =>
          dsimp only
          split
          · exact sent
          · exact sent.trans (requeueFile_tends sent.known file offset count)
    · exact requeueFile_tends known file offset count

/-- A connection that is closed, watched for nothing. -/
structure Shut (c : TcpConnection) : Prop where
  known : c.Known
  closed : .closeCallback ∈ c.trace
  writing : c.channel.isWriting = false

theorem Shut.tends {after : TcpConnection} (shut : after.Shut) : c.Tends after := by
  have dead : ¬ after.Alive := fun alive => alive shut.closed
  refine ⟨shut.known, fun _ writing => ?_, fun alive => absurd alive dead,
    fun alive => absurd alive dead, fun alive => absurd alive dead⟩
  rw [shut.writing] at writing
  cases writing

/-- Only a registered descriptor has a mask, which is that of its channel. -/
theorem Known.interest_eq (known : c.Known) :
    c.interest = if c.channel.index = .kAdded then some c.channel.events else none := by
  rw [interest, known.registered.interest]
  split <;> rfl

/-- epoll reports room to a channel with write interest only. -/
theorem Known.writing_of_room (known : c.Known)
    (watched : Source.room.watched c.interest = true) : c.channel.isWriting = true := by
  rw [known.interest_eq] at watched
  split at watched
  · simpa [Source.watched, Source.bit, Channel.isWriting, kWriteEvent] using watched
  · cases watched

/-- A close tells epoll either that the descriptor is gone or, when it was gone before, that it
is there again. -/
theorem handleClose_shut (known : c.Known) :
    ∃ after, c.handleClose = .ok after ∧ after.Shut ∧ after.interest ≠ c.interest := by
  have down : (c.setState .kDisconnected).Known := ⟨known.registered, known.input, known.output⟩
  obtain ⟨poller, updated, registered, -⟩ :=
    EPollPoller.updateChannel_registered down.registered kNoneEvent
  let after : TcpConnection := { c with
    state := .kDisconnected
    poller
    channel := { c.channel with
      events := kNoneEvent
      index := EPollPoller.nextIndex c.channel.index kNoneEvent }
    trace := .closeCallback :: .connectionCallback false :: c.trace }
  have known' : after.Known := ⟨registered, known.input, known.output⟩
  have silent : after.channel.isWriting = false := by
    simp [after, Channel.isWriting, kNoneEvent]
  refine ⟨after, ?_, ⟨known', List.mem_cons_self, silent⟩, ?_⟩
  · simp only [handleClose, disconnect, disableAll, updateEvents, updated, bind, Except.bind]
    rfl
  · rw [known'.interest_eq, known.interest_eq]
    by_cases added : c.channel.index = .kAdded
    · simp [after, EPollPoller.nextIndex, added]
    · simp [after, EPollPoller.nextIndex, added]

/-- A connection that is destroyed leaves the poller, whatever is still in its output. -/
theorem connectDestroyed_ends (known : c.Known) :
    ∃ after, c.connectDestroyed = .ok after ∧ after.Known ∧ (c.Pending → after.Pending) := by
  obtain ⟨after, destroyed, outcome⟩ := connectDestroyed_ok known.sound
  have kept := (connectDestroyed_keeps known).of_ok destroyed
  refine ⟨after, destroyed, kept.known, ?_⟩
  unfold Pending
  split at outcome
  · rw [outcome.2.2]
    intro _ writing
    cases writing
  · have same : after.readable = c.readable := congrArg Buffer.readable outcome.1.outputBuffer
    rw [outcome.2.2, same]
    exact id

theorem runFunctor_tends (known : c.Known) (functor : Functor) (result : IoResult)
    (begun : functor ≠ .connectEstablished) :
    Spec Buffer.Throws (fun after => after.Known ∧ (c.Pending → after.Pending) ∧
      (functor ≠ .connectDestroyed → c.Tends after)) (c.runFunctor functor result) := by
  have whole {after : TcpConnection} (tends : c.Tends after) : after.Known ∧
      (c.Pending → after.Pending) ∧ (functor ≠ .connectDestroyed → c.Tends after) :=
    ⟨tends.known, tends.pending, fun _ => tends⟩
  cases functor with
  | connectEstablished => exact absurd rfl begun
  | connectDestroyed =>
      obtain ⟨after, destroyed, known', pending⟩ := connectDestroyed_ends known
      rw [runFunctor, destroyed]
      exact ⟨known', pending, fun other => absurd rfl other⟩
  | sendInLoop data => exact (sendInLoop_tends known data result).mono fun _ => whole
  | sendFileInLoop file offset count =>
      exact whole (sendFileInLoop_tends known file offset count result)
  | shutdownInLoop => exact whole (shutdownInLoop_tends known)
  | writeComplete => exact whole (known.tends rfl rfl known.input rfl id)
  | highWaterMark pending => exact whole (known.tends rfl rfl known.input rfl id)

/-- A turn of `handleRead` is the last one when it closes the connection or finds nothing. -/
theorem readOnce_tends (known : c.Known) (result : ReadResult) :
    Spec Buffer.Throws (fun after => c.Tends after.1 ∧
      (after.2 = true ∨ result = .error .EAGAIN ∨ after.1.interest ≠ c.interest))
      (c.readOnce result) := by
  have closes {inputBuffer : Buffer} (valid : inputBuffer.Valid) :
      Spec Buffer.Throws (fun after => c.Tends after.1 ∧
        (after.2 = true ∨ result = .error .EAGAIN ∨ after.1.interest ≠ c.interest))
        ((handleClose { c with inputBuffer }).map (·, false)) := by
    have known' : Known { c with inputBuffer } := ⟨known.registered, valid, known.output⟩
    obtain ⟨after, closed, shut, told⟩ := handleClose_shut known'
    rw [closed]
    exact ⟨shut.tends, Or.inr (Or.inr told)⟩
  unfold readOnce
  apply (Buffer.readFd_spec known.input result).bind_of_ok
  intro ⟨inputBuffer, outcome⟩ read ⟨valid, _⟩
  dsimp only
  cases outcome with
  | count n =>
      cases n with
      | zero => exact closes valid
      | succ n => exact ⟨known.tends rfl rfl valid rfl alive_of_emit, Or.inl rfl⟩
  | error errno =>
      cases errno with
      | EAGAIN =>
          refine ⟨known.tends rfl rfl valid rfl id, Or.inr (Or.inl ?_)⟩
          cases result with
          | data incoming => cases Buffer.readFd_count read
          | error errno =>
              cases read
              rfl
      | EPIPE => exact closes valid
      | ECONNRESET => exact closes valid
      | other code => exact closes valid

/-- A turn of `handleWrite` is the last one when the kernel takes nothing. -/
theorem writeOnce_tends (known : c.Known) (result : IoResult) :
    Spec Buffer.Throws (fun after => c.Tends after.1 ∧ (after.2 = false →
      result.accepted c.readable = [] ∧ after.1.channel = c.channel)) (c.writeOnce result) := by
  obtain ⟨after, again, returned, rest, goes, outcome⟩ := writeOnce_ok known.sound result
  have known' := ((writeOnce_keeps known result).of_ok returned).known
  have shown := fun (_ : after.Alive) shown => (writeOnce_shown known shown result).of_ok returned
  have fewer : after.readable ≠ [] → c.readable ≠ [] := by
    intro some none
    exact some (by rw [rest, none, List.drop_nil])
  rw [returned]
  rcases outcome with ⟨took, empty, extended, quiet⟩ | ⟨more, extended, same⟩
  · refine ⟨⟨known', ?_, extended.alive, shown, ?_⟩, ?_⟩
    · intro _ writing
      rw [quiet] at writing
      cases writing
    · simp [Watched, quiet, empty]
    · intro last
      rw [goes.mpr took] at last
      cases last
  · have kept : c.readable ≠ [] → after.readable ≠ [] := by
      intro some
      rcases more with none | left
      · rwa [rest, none, List.length_nil, List.drop_zero]
      · exact left
    refine ⟨⟨known', ?_, extended.alive, shown, ?_⟩, ?_⟩
    · intro pending writing
      rw [same] at writing
      exact kept (pending writing)
    · intro _ watched
      unfold Watched at watched ⊢
      rw [same, watched]
      exact ⟨kept, fewer⟩
    · intro last
      refine ⟨?_, same⟩
      by_contra took
      rw [goes.mpr took] at last
      cases last

end TcpConnection

namespace EdgeConnection

/-- What is due is on the ready list, or its callback is still to run. -/
def Edges (e : EdgeConnection) : Prop :=
  ∀ source, e.due e.conn.interest source = true → e.ready = true ∨ source.handler ∈ e.handlers

variable {e : EdgeConnection} {source : Source}

theorem lower_due {interest : Option EventMask} {lowered : Source} {left : Bool}
    (due : (e.lower lowered left).due interest source = true) : e.due interest source = true := by
  unfold EdgeConnection.due lower at *
  by_cases same : source = lowered
  · subst same
    simp only [Function.update_self, Bool.and_eq_true] at due ⊢
    exact ⟨due.1.2, due.2⟩
  · simpa only [Function.update_of_ne same] using due

theorem Edges.lower (edges : e.Edges) (lowered : Source) (left : Bool) :
    (e.lower lowered left).Edges :=
  fun source due => edges source (lower_due due)

theorem Source.mem_all (source : Source) : source ∈ Source.all := by
  cases source <;> decide

/-- A new mask is looked at. -/
theorem settle_ready {conn : TcpConnection} (told : conn.interest ≠ e.conn.interest)
    (due : e.due conn.interest source = true) : (e.settle conn).ready = true := by
  have registered : conn.interest.isSome = true := by
    cases here : conn.interest with
    | none => simp [EdgeConnection.due, Source.watched, here] at due
    | some mask => rfl
  simp only [settle, if_neg told, registered, Bool.true_and, Bool.or_eq_true, List.any_eq_true]
  exact Or.inr ⟨source, Source.mem_all source, due⟩

theorem Edges.settle (edges : e.Edges) (conn : TcpConnection) : (e.settle conn).Edges := by
  intro source due
  by_cases same : conn.interest = e.conn.interest
  · have before : e.due e.conn.interest source = true := same ▸ due
    simpa only [EdgeConnection.settle, if_pos same] using edges source before
  · exact Or.inl (settle_ready same due)

/-- A callback is done when what it sees to is not due, or the descriptor is ready again. -/
theorem Edges.pop (edges : e.Edges) {handler : Handler} {rest : List Handler}
    (waiting : e.handlers = handler :: rest)
    (done : ∀ source, source.handler = handler → e.due e.conn.interest source = true →
      e.ready = true) : EdgeConnection.Edges { e with handlers := rest } := by
  intro source due
  rcases edges source due with ready | inside
  · exact Or.inl ready
  · rw [waiting, List.mem_cons] at inside
    rcases inside with same | later
    · exact Or.inl (done source same due)
    · exact Or.inr later

theorem Edges.raise (edges : e.Edges) (raised : Source) : (e.raise raised).Edges := by
  intro source due
  simp only [EdgeConnection.due, EdgeConnection.raise] at due
  by_cases same : source = raised
  · subst same
    simp only [Function.update_self, Bool.true_and] at due
    cases level : e.level source with
    | true =>
        have before : e.due e.conn.interest source = true := by
          simp [EdgeConnection.due, level, due]
        rcases edges source before with ready | inside
        · simp [EdgeConnection.raise, ready]
        · exact Or.inr inside
    | false => simp [EdgeConnection.raise, level, due]
  · rw [Function.update_of_ne same] at due
    rcases edges source due with ready | inside
    · simp [EdgeConnection.raise, ready]
    · exact Or.inr inside

/-- What epoll reports has its callback run. -/
theorem mem_handlersOf {revents : EventMask} (reported : revents &&& source.bit ≠ 0#32) :
    source.handler ∈ handlersOf revents := by
  have input : revents &&& EPOLLIN ≠ 0#32 → revents &&& (EPOLLIN ||| EPOLLPRI) ≠ 0#32 := by
    intro some none
    rw [BitVec.and_or_distrib_left, BitVec.or_eq_zero_iff] at none
    exact some none.1
  cases source with
  | input => simp [handlersOf, Source.handler, input reported]
  | room =>
      have room : revents &&& EPOLLOUT ≠ 0#32 := reported
      simp [handlersOf, Source.handler, room]
  | reset =>
      have reset : revents &&& EPOLLERR ≠ 0#32 := reported
      simp [handlersOf, Source.handler, reset]

/-- The callbacks of one event come in a fixed order. -/
def order : List Handler := [.close, .error, .read, .write]

theorem handlersOf_sublist (revents : EventMask) : (handlersOf revents).Sublist order := by
  have part (asked : Prop) [Decidable asked] (handler : Handler) :
      (if asked then [handler] else []).Sublist [handler] := by
    split
    · exact List.Sublist.refl _
    · exact List.nil_sublist _
  exact (((part _ .close).append (part _ .error)).append (part _ .read)).append (part _ .write)

/-- Nothing comes behind `handleWrite`. -/
theorem eq_nil_of_write {rest : List Handler} (ordered : (.write :: rest).Sublist order) :
    rest = [] := by
  have tail := ordered.length_le
  cases rest with
  | nil => rfl
  | cons next rest => simp [order, List.sublist_cons_iff] at ordered

/-- The invariant. -/
structure Sound (e : EdgeConnection) : Prop where
  known : e.conn.Known
  pending : e.conn.Pending
  ordered : e.handlers.Sublist order
  writing : e.writing = true → e.handlers = [.write]
  live : e.Live → e.conn.Shown ∧ e.conn.Watched
  edges : e.Edges

theorem Sound.report (sound : e.Sound) (revents : EventMask) :
    Spec WatchLoop.Allowed Sound (e.report revents) := by
  obtain ⟨known, pending, ordered, writing, live, edges⟩ := sound
  unfold EdgeConnection.report
  split
  · rename_i enabled
    obtain ⟨-, idle, -, all⟩ := enabled
    refine ⟨known, pending, handlersOf_sublist revents, fun inside => ?_, live, ?_⟩
    · rw [writing inside] at idle
      cases idle
    · intro source due
      exact Or.inr (mem_handlersOf (all source (Source.mem_all source) due))
  · exact .inl rfl

/-- What a function does to the connection keeps the invariant but for the callbacks; one that
destroys it may do more. -/
theorem Sound.settle_as (sound : e.Sound) {conn : TcpConnection} (known : conn.Known)
    (pending : e.conn.Pending → conn.Pending) {destroyed : Bool}
    (tends : destroyed = false → e.destroyed = false ∧ e.conn.Tends conn) :
    EdgeConnection.Sound { e.settle conn with destroyed } := by
  refine ⟨known, pending sound.pending, sound.ordered, sound.writing, fun alive => ?_,
    sound.edges.settle conn⟩
  obtain ⟨undestroyed, kept⟩ := tends alive.2
  obtain ⟨shown, watched⟩ := sound.live ⟨kept.alive alive.1, undestroyed⟩
  exact ⟨kept.shown alive.1 shown, kept.watched alive.1 watched⟩

theorem Sound.settle (sound : e.Sound) {conn : TcpConnection} (tends : e.conn.Tends conn) :
    (e.settle conn).Sound :=
  sound.settle_as tends.known tends.pending fun undestroyed => ⟨undestroyed, tends⟩

theorem Sound.lower (sound : e.Sound) (lowered : Source) (left : Bool) :
    (e.lower lowered left).Sound :=
  ⟨sound.known, sound.pending, sound.ordered, sound.writing, sound.live,
    sound.edges.lower lowered left⟩

theorem Sound.call (sound : e.Sound) {result : Except Fault TcpConnection} (left : Bool)
    (tends : Spec Buffer.Throws e.conn.Tends result) :
    Spec WatchLoop.Allowed Sound (e.call result left) := by
  unfold EdgeConnection.call
  split
  · exact .inl rfl
  · refine (tends.allow fun _ => Or.inr).map fun conn tends => ?_
    exact (sound.lower .room left).settle tends

/-- A callback that has come to its end, or to its next turn. -/
theorem Sound.runHandler (sound : e.Sound) {handler : Handler}
    {result : Except Fault (TcpConnection × Bool)}
    (tends : Spec Buffer.Throws (fun after => e.conn.Tends after.1 ∧
      (after.2 = false → ∀ source, source.handler = handler →
        e.due after.1.interest source = true → (e.settle after.1).ready = true))
      result)
    (inside : e.writing = true → handler = .write → ∀ after, result = .ok after → after.2 = true) :
    Spec WatchLoop.Allowed Sound (e.runHandler handler result) := by
  unfold EdgeConnection.runHandler
  split
  · exact .inl rfl
  · rename_i next rest waiting
    split
    · rename_i same
      subst same
      refine (tends.allow fun _ => Or.inr).bind_of_ok fun after returned outcome => ?_
      have settled := sound.settle outcome.1
      obtain ⟨conn, again⟩ := after
      cases again with
      | true => exact settled
      | false =>
          have ordered := sound.ordered
          rw [waiting] at ordered
          refine ⟨settled.known, settled.pending, (List.sublist_cons_self _ _).trans ordered,
            fun writing => ?_, settled.live, settled.edges.pop waiting (outcome.2 rfl)⟩
          have only := sound.writing writing
          rw [waiting, List.cons.injEq] at only
          cases inside writing only.1 _ returned
    · exact .inl rfl

/-- `handleClose`, on its own or from `handleError`. -/
theorem Sound.closed (sound : e.Sound) (handler : Handler) (other : handler ≠ .write) :
    Spec WatchLoop.Allowed Sound (e.runHandler handler (e.conn.handleClose.map (·, false))) := by
  obtain ⟨after, closed, shut, told⟩ := TcpConnection.handleClose_shut sound.known
  rw [closed]
  exact sound.runHandler ⟨shut.tends, fun _ source _ due => settle_ready told due⟩
    fun _ same => absurd same other

theorem Sound.handleRead (sound : e.Sound) (result : ReadResult) (left : Bool) :
    Spec WatchLoop.Allowed Sound (e.handleRead result left) := by
  unfold EdgeConnection.handleRead
  split
  · rename_i readable
    have lowered := sound.lower .input left
    refine lowered.runHandler ((TcpConnection.readOnce_tends sound.known result).mono ?_)
      fun _ same => by cases same
    intro after ⟨tends, ends⟩
    refine ⟨tends, fun last source same due => ?_⟩
    rcases ends with more | nothing | told
    · rw [last] at more
      cases more
    · subst nothing
      cases source with
      | input =>
          have level := (Bool.and_eq_true _ _).mp (lower_due due)
          simp [EdgeConnection.readable, level.1] at readable
      | room => cases same
      | reset => cases same
    · exact settle_ready told due
  · exact .inl rfl

/-- Without write interest there is nothing to write. -/
theorem Sound.handleWrite (sound : e.Sound) : Spec WatchLoop.Allowed Sound e.handleWrite := by
  unfold EdgeConnection.handleWrite
  split
  · exact .inl rfl
  · rename_i outside
    split
    · split
      · rename_i first
        obtain ⟨rest, waiting⟩ := List.head?_eq_some_iff.mp first
        have ordered := sound.ordered
        rw [waiting] at ordered
        have only : e.handlers = [.write] := by rw [waiting, eq_nil_of_write ordered]
        exact ⟨sound.known, sound.pending, sound.ordered, fun _ => only, sound.live, sound.edges⟩
      · exact .inl rfl
    · rename_i silent
      have tends : e.conn.Tends e.conn :=
        sound.known.tends rfl rfl sound.known.input rfl id
      refine sound.runHandler ⟨tends, fun _ source same due => ?_⟩
        fun inside => absurd inside outside
      cases source with
      | room =>
          have watched := ((Bool.and_eq_true _ _).mp due).2
          exact absurd (sound.known.writing_of_room watched) silent
      | input => cases same
      | reset => cases same

/-- On a reset socket the error callback has run or the descriptor is ready again. -/
theorem Sound.ready_of_reset (sound : e.Sound) (only : e.handlers = [.write])
    (reset : e.level .reset = true) (registered : e.conn.interest.isSome = true) :
    e.ready = true := by
  obtain ⟨mask, here⟩ := Option.isSome_iff_exists.mp registered
  have due : e.due e.conn.interest .reset = true := by
    simp [EdgeConnection.due, Source.watched, here, reset]
  rcases sound.edges .reset due with ready | waiting
  · exact ready
  · simp [only, Source.handler] at waiting

/-- Unless the loop of `handleWrite` ends on an error that says nothing of the socket, it ends
with nothing to write, with the send buffer full, or on a reset socket. -/
theorem Sound.last_write (sound : e.Sound) (only : e.handlers = [.write]) {result : IoResult}
    (clean : ∀ code, result ≠ .error (.other code)) (writable : e.writable result = true)
    (took : result.accepted e.conn.readable = []) (room : e.due e.conn.interest .room = true) :
    e.ready = true := by
  obtain ⟨level, watched⟩ := (Bool.and_eq_true _ _).mp room
  have some := sound.pending (sound.known.writing_of_room watched)
  cases result with
  | count n =>
      have length : e.conn.outputBuffer.readableBytes ≠ 0 := by
        rw [sound.known.sound.readable_length]
        exact fun none => some (List.length_eq_zero_iff.mp none)
      have positive : 0 < n := by
        simpa [EdgeConnection.writable, length, level] using writable
      rw [IoResult.accepted, List.take_eq_nil_iff] at took
      rcases took with zero | none
      · omega
      · exact absurd none some
  | error errno =>
      have registered : e.conn.interest.isSome = true := by
        cases here : e.conn.interest with
        | none => simp [Source.watched, here] at watched
        | some mask => rfl
      cases errno with
      | EAGAIN => simp [EdgeConnection.writable, level] at writable
      | EPIPE => exact sound.ready_of_reset only writable registered
      | ECONNRESET => exact sound.ready_of_reset only writable registered
      | other code => exact absurd rfl (clean code)

theorem Sound.writeOnce (sound : e.Sound) (result : IoResult) (left : Bool)
    (clean : ∀ code, result ≠ .error (.other code)) :
    Spec WatchLoop.Allowed Sound (e.writeOnce result left) := by
  unfold EdgeConnection.writeOnce
  split
  · rename_i enabled
    obtain ⟨inside, writable⟩ := enabled
    have only := sound.writing inside
    refine ((TcpConnection.writeOnce_tends sound.known result).allow
      fun _ => Or.inr).bind fun after outcome => ?_
    obtain ⟨conn, again⟩ := after
    obtain ⟨tends, ends⟩ := outcome
    have lowered : Sound { e.lower .room left with writing := again } :=
      ⟨sound.known, sound.pending, sound.ordered, fun _ => only, sound.live,
        sound.edges.lower .room left⟩
    refine lowered.runHandler ⟨tends, fun last source same due => ?_⟩ fun goes _ after same => ?_
    · obtain ⟨took, channel⟩ := ends last
      have told : conn.interest = e.conn.interest := by
        rw [tends.known.interest_eq, sound.known.interest_eq, channel]
      have due := lower_due due
      rw [told] at due
      cases source with
      | room =>
          show (if conn.interest = e.conn.interest then e.ready else _) = true
          rw [if_pos told]
          exact sound.last_write only clean writable took due
      | input => cases same
      | reset => cases same
    · cases same
      exact goes
  · exact .inl rfl

/-- A connection that is destroyed is not live any more. -/
theorem Sound.runFunctor (sound : e.Sound) (functor : Functor) (result : IoResult) (left : Bool) :
    Spec WatchLoop.Allowed Sound (e.runFunctor functor result left) := by
  unfold EdgeConnection.runFunctor EdgeConnection.call
  split
  · rename_i enabled
    split
    · exact .inl rfl
    · cases ran : e.conn.runFunctor functor result with
      | error fault =>
          exact .inr (Spec.of_error (TcpConnection.runFunctor_tends sound.known functor result
            enabled.2) ran)
      | ok conn =>
          obtain ⟨known, pending, tends⟩ :=
            (TcpConnection.runFunctor_tends sound.known functor result enabled.2).of_ok ran
          refine (sound.lower .room left).settle_as known pending fun undestroyed => ?_
          obtain ⟨before, other⟩ := (Bool.or_eq_false_iff).mp undestroyed
          exact ⟨before, tends (of_decide_eq_false other)⟩
  · exact .inl rfl

theorem Sound.step (sound : e.Sound) {event : EdgeEvent} (clean : event.Clean) :
    Spec WatchLoop.Allowed Sound (e.step event) := by
  have known := sound.known
  cases event with
  | raise source =>
      exact ⟨known, sound.pending, sound.ordered, sound.writing, sound.live,
        sound.edges.raise source⟩
  | wake =>
      refine ⟨known, sound.pending, sound.ordered, sound.writing, sound.live, fun source due => ?_⟩
      rcases sound.edges source due with ready | inside
      · simp [ready]
      · exact Or.inr inside
  | report revents => exact sound.report revents
  | handleClose => exact sound.closed .close (by decide)
  | handleError => exact sound.closed .error (by decide)
  | handleRead result left => exact sound.handleRead result left
  | handleWrite => exact sound.handleWrite
  | writeOnce result left =>
      exact sound.writeOnce result left fun code same => clean code left (by rw [same])
  | retrieve len =>
      exact sound.call true (known.tends rfl rfl (known.input.retrieve len).1 rfl id)
  | send data result left => exact sound.call left (TcpConnection.send_tends known data result)
  | sendFile file offset count result left =>
      refine sound.call left ?_
      unfold EdgeConnection.sendFile
      split
      · exact TcpConnection.sendFileInLoop_tends known file offset count result
      · exact known.tends rfl rfl known.input rfl id
  | shutdown => exact sound.call true (TcpConnection.shutdown_tends known)
  | testConnected =>
      refine .guard (fun _ => ?_) (.inl rfl)
      exact ⟨known, sound.pending, sound.ordered, sound.writing, sound.live, sound.edges⟩
  | storeDisconnecting =>
      refine .guard (fun _ => ?_) (.inl rfl)
      have leaving : e.conn.Tends (e.conn.setState .kDisconnecting) :=
        known.tends rfl rfl known.input rfl id
      have settled := sound.settle leaving
      exact ⟨settled.known, settled.pending, settled.ordered, settled.writing, settled.live,
        settled.edges⟩
  | runFunctor functor result left => exact sound.runFunctor functor result left

theorem start_sound (config : Session.Config) (level : Source → Bool) :
    (start config level).Sound := by
  have watched := Session.established_watched config
  have known : (Session.established config).Known := by
    refine ⟨⟨?_, ?_⟩, TcpConnection.defaultBuffer_valid, TcpConnection.defaultBuffer_valid⟩
    · simp [Session.established]
    · simp [Session.established]
  have shown : (Session.established config).Shown := by
    refine ⟨rfl, ?_⟩
    simp [Session.established, kNoneEvent, EPOLLET, kReadEvent, EPOLLIN, EPOLLPRI]
  refine ⟨known, watched.mp, List.nil_sublist _, fun inside => ?_, fun _ => ⟨shown, watched⟩, ?_⟩
  · cases inside
  · intro source due
    exact Or.inl (List.any_eq_true.mpr ⟨source, Source.mem_all source, due⟩)

theorem Sound.roused (sound : e.Sound) : e.Roused := by
  intro idle live needed
  obtain ⟨shown, watched⟩ := sound.live live
  have interest := sound.known.interest_eq
  rw [if_pos shown.added] at interest
  have ready {source : Source} (due : e.due e.conn.interest source = true) : e.ready = true := by
    rcases sound.edges source due with ready | inside
    · exact ready
    · rw [idle] at inside
      cases inside
  rcases needed with input | ⟨room, some⟩ | reset
  · have reading : e.conn.channel.events &&& EPOLLIN ≠ 0#32 := by
      intro none
      have bit := congrArg (BitVec.getLsbD · 0) none
      simp only [BitVec.getLsbD_and, shown.reading] at bit
      cases bit
    exact ready (show e.due e.conn.interest .input = true by
      simp [EdgeConnection.due, Source.watched, Source.bit, interest, input, reading])
  · have writing := watched.mpr some
    rw [Channel.isWriting, kWriteEvent] at writing
    exact ready (show e.due e.conn.interest .room = true by
      simpa [EdgeConnection.due, Source.watched, Source.bit, interest, room] using writing)
  · exact ready (show e.due e.conn.interest .reset = true by
      simp [EdgeConnection.due, Source.watched, interest, reset])

/-- No edge is lost: in every run of a connection in edge-triggered mode, whatever arrives while
its callbacks run, epoll reports an open connection that has something to read, or to send and
room for it, or that was reset. -/
theorem none_stranded (config : Session.Config) (level : Source → Bool) (events : List EdgeEvent)
    (clean : ∀ event ∈ events, event.Clean) :
    Always EdgeConnection.step Roused WatchLoop.Allowed (start config level) events :=
  always_of_guarded Sound (fun _ sound => sound.roused)
    (fun _ _ sound clean => sound.step clean) (start_sound config level)
    (guarded_of_forall (fun event inside _ => clean event inside) _)

/-- Input arrives while the loop reads, and there is room just before and just after a write finds
none. -/
def busy : List EdgeEvent :=
  [.raise .input, .report EPOLLIN, .handleRead (.data [1, 2]) true,
    .send ⟨[3, 4], by decide⟩ (.error .EAGAIN) false, .raise .room, .raise .input,
    .handleRead (.data [5]) false, .handleRead (.error .EAGAIN) false, .report EPOLLOUT,
    .handleWrite, .writeOnce (.count 1) false, .writeOnce (.error .EAGAIN) false, .raise .room]

theorem busy_not_stranded :
    Always EdgeConnection.step Roused WatchLoop.Allowed
      (start Session.plainConfig fun _ => false) busy :=
  none_stranded _ _ busy (by simp [busy, EdgeEvent.Clean])

/-- The store of `shutdown` on another thread comes after `handleClose`: the connection says
kDisconnecting, its descriptor is no longer watched, and its input stays unread. -/
example : (run EdgeConnection.step (start Session.plainConfig fun _ => false)
    [.testConnected, .raise .input, .report EPOLLIN, .handleRead (.data []) true,
      .storeDisconnecting]).map (fun e =>
        (e.conn.state, e.conn.interest, e.level .input, e.ready, e.handlers)) =
    .ok (.kDisconnecting, none, true, false, []) := by
  decide +kernel

end EdgeConnection

end KamaWebserver
