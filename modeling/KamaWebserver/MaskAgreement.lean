import KamaWebserver.PollerRegistration
import KamaWebserver.TcpConnectionEvents

set_option autoImplicit false

namespace KamaWebserver

open Outcome Transition

namespace Channel

def isEdgeTriggered (ch : Channel) : Bool := ch.events &&& EPOLLET != 0#32

theorem isEdgeTriggered_eq (ch : Channel) : ch.isEdgeTriggered = ch.events.getLsbD 31 := by
  have bit := BitVec.and_twoPow ch.events 31
  rw [show BitVec.twoPow 32 31 = EPOLLET by decide] at bit
  rw [isEdgeTriggered, bit]
  cases ch.events.getLsbD 31 <;> decide

/-- Setting the flag changes the mask exactly when it is not set. -/
theorem enableET_events_iff (ch : Channel) :
    ch.enableET.events = ch.events ↔ ch.isEdgeTriggered = true := by
  rw [isEdgeTriggered_eq]
  constructor
  · intro same
    rw [← same]
    simp [enableET, EPOLLET]
  · intro set
    have flag : EPOLLET = BitVec.twoPow 32 31 := by decide
    apply BitVec.eq_of_getLsbD_eq
    intro i inside
    simp only [enableET, flag, BitVec.getLsbD_or, BitVec.getLsbD_twoPow]
    by_cases last : 31 = i
    · simp [← last, set]
    · simp [last]

end Channel

/-- The listening socket's channel. -/
structure Acceptor where
  acceptChannel : Channel
  listenning : Bool

namespace Acceptor

def create (self fd : Nat) : Acceptor := ⟨Channel.create self fd, false⟩

/-- Reading is enabled first; the flag set behind it is not told to the poller. -/
def listen (a : Acceptor) (p : EPollPoller) : Except Fault (EPollPoller × Acceptor) := do
  let ch := a.acceptChannel
  let (p, ch) ← p.updateChannel { ch with events := ch.events ||| kReadEvent }
  return (p, { acceptChannel := ch.enableET, listenning := true })

end Acceptor

namespace TcpConnection

/-- The poller holds what the channel says, and the buffers are in order. -/
structure Known (c : TcpConnection) : Prop where
  registered : c.poller.Registered c.channel
  input : c.inputBuffer.Valid
  output : c.outputBuffer.Valid

/-- `after` is known again, is the same channel, and the poller differs at its descriptor only. -/
structure Keeps (c after : TcpConnection) : Prop where
  known : after.Known
  onlyAt : c.poller.OnlyAt c.channel.fd after.poller
  fd : after.channel.fd = c.channel.fd

variable {c : TcpConnection}

theorem Known.keeps (known : c.Known) {after : TcpConnection} (poller : after.poller = c.poller)
    (channel : after.channel = c.channel) (input : after.inputBuffer = c.inputBuffer)
    (output : after.outputBuffer.Valid) : c.Keeps after where
  known := ⟨poller ▸ channel ▸ known.registered, input ▸ known.input, output⟩
  onlyAt := ⟨fun _ _ => by rw [poller], fun _ _ => by rw [poller]⟩
  fd := by rw [channel]

theorem Keeps.trans {middle after : TcpConnection} (first : c.Keeps middle)
    (second : middle.Keeps after) : c.Keeps after where
  known := second.known
  onlyAt :=
    ⟨fun other differ =>
      (second.onlyAt.channels other (first.fd ▸ differ)).trans (first.onlyAt.channels other differ),
    fun other differ =>
      (second.onlyAt.interest other (first.fd ▸ differ)).trans (first.onlyAt.interest other differ)⟩
  fd := second.fd.trans first.fd

theorem Known.emit (known : c.Known) (effect : Effect) : c.Keeps (c.emit effect) :=
  known.keeps rfl rfl rfl known.output

theorem Known.queueWriteComplete (known : c.Known) : c.Keeps c.queueWriteComplete := by
  unfold TcpConnection.queueWriteComplete
  split <;> exact known.keeps rfl rfl rfl known.output

theorem Known.completeWrite (known : c.Known) (remaining : Nat) :
    c.Keeps (c.completeWrite remaining) := by
  unfold TcpConnection.completeWrite
  split
  · exact known.queueWriteComplete
  · exact known.keeps rfl rfl rfl known.output

theorem Known.queueHighWaterMark (known : c.Known) (remaining : Nat) :
    c.Keeps (c.queueHighWaterMark remaining) := by
  unfold TcpConnection.queueHighWaterMark
  dsimp only
  split <;> exact known.keeps rfl rfl rfl known.output

/-- Setting the mask and telling the poller keeps them alike, whatever the mask was. -/
theorem updateEvents_keeps (known : c.Known) (events : EventMask) :
    Spec Buffer.Throws c.Keeps (c.updateEvents events) := by
  obtain ⟨poller, updated, registered, onlyAt⟩ :=
    EPollPoller.updateChannel_registered known.registered events
  simp only [updateEvents, updated, bind, Except.bind, pure, Except.pure, spec_ok]
  exact ⟨⟨registered, known.input, known.output⟩, onlyAt, rfl⟩

theorem appendOutput_keeps (known : c.Known) (data : List UInt8)
    (small : data.length ≤ maxSize) : Spec Buffer.Throws c.Keeps (c.appendOutput data) := by
  apply (Buffer.append_spec known.output data small).bind
  rintro outputBuffer ⟨valid, -⟩
  exact known.keeps rfl rfl rfl valid

theorem bufferRemaining_keeps (known : c.Known) (remaining : List UInt8)
    (small : remaining.length ≤ maxSize) :
    Spec Buffer.Throws c.Keeps (c.bufferRemaining remaining) := by
  unfold bufferRemaining
  split
  · have noticed := known.queueHighWaterMark remaining.length
    apply (appendOutput_keeps noticed.known remaining small).bind
    intro filled appended
    have kept := noticed.trans appended
    split
    · exact kept
    · exact (updateEvents_keeps kept.known _).mono fun after watched => kept.trans watched
  · exact known.keeps rfl rfl rfl known.output

theorem sendInLoop_keeps (known : c.Known) (data : ByteString) (result : IoResult) :
    Spec Buffer.Throws c.Keeps (c.sendInLoop data result) := by
  have started := known.emit (.sendInLoop data.bytes)
  have wrote := started.trans (started.known.emit (.write (result.accepted data.bytes)))
  unfold sendInLoop
  dsimp only
  split
  · cases result with
    | count n =>
        have small := data.drop_bounded (IoResult.accepted (.count n) data.bytes).length
        have noticed := wrote.trans (wrote.known.completeWrite
          (data.bytes.drop (IoResult.accepted (.count n) data.bytes).length).length)
        exact (bufferRemaining_keeps noticed.known _ small).mono
          fun after buffered => noticed.trans buffered
    | error errno =>
        dsimp only
        split
        · exact wrote
        · exact (bufferRemaining_keeps wrote.known _ data.bounded).mono
            fun after buffered => wrote.trans buffered
  · exact (bufferRemaining_keeps started.known _ data.bounded).mono
      fun after buffered => started.trans buffered

theorem outputDrained_keeps (known : c.Known) :
    Spec Buffer.Throws c.Keeps c.outputDrained := by
  unfold outputDrained disableWriting
  apply (updateEvents_keeps known _).bind
  intro quiet disabled
  have noticed := disabled.trans disabled.known.queueWriteComplete
  change c.Keeps (if _ then _ else _)
  split
  · unfold shutdownInLoop
    split
    · exact noticed
    · exact noticed.trans (noticed.known.emit .shutdownWrite)
  · exact noticed

theorem writeOnce_keeps (known : c.Known) (result : IoResult) :
    Spec Buffer.Throws (fun after => c.Keeps after.1) (c.writeOnce result) := by
  obtain ⟨⟨bytes, outcome⟩, returned⟩ :
      ∃ answer, c.outputBuffer.writeFd result = .ok answer :=
    ⟨_, Buffer.writeFd_eq known.output result⟩
  have wrote := known.emit (.write bytes)
  simp only [writeOnce, returned, bind, Except.bind]
  split
  · exact wrote
  · exact wrote
  · rename_i n nonzero
    have taken : c.Keeps ((c.emit (.write bytes)).retrieveOutput n) :=
      wrote.trans (wrote.known.keeps rfl rfl rfl (wrote.known.output.retrieve n).1)
    split
    · exact (outputDrained_keeps taken.known).map fun after drained => taken.trans drained
    · exact taken

theorem handleWriteLoop_keeps (known : c.Known) (results : List IoResult) :
    Spec Buffer.Throws c.Keeps (c.handleWriteLoop results) := by
  induction results generalizing c with
  | nil =>
      apply (writeOnce_keeps known _).bind
      rintro ⟨after, again⟩ kept
      exact kept
  | cons result results ih =>
      apply (writeOnce_keeps known result).bind
      rintro ⟨middle, again⟩ kept
      dsimp only
      split
      · exact (ih kept.known).mono fun after rest => kept.trans rest
      · exact kept

theorem handleWrite_keeps (known : c.Known) (results : List IoResult) :
    Spec Buffer.Throws c.Keeps (c.handleWrite results) := by
  unfold handleWrite
  split
  · exact handleWriteLoop_keeps known results
  · exact known.keeps rfl rfl rfl known.output

/-- The flag is set before reading is enabled, so that the poller is told both. -/
theorem connectEstablished_keeps (known : c.Known) :
    Spec Buffer.Throws c.Keeps c.connectEstablished := by
  have up : c.Keeps (c.setState .kConnected) := known.keeps rfl rfl rfl known.output
  have told : (c.setState .kConnected).enableET.enableReading =
      (c.setState .kConnected).updateEvents
      (c.channel.enableET.events ||| kReadEvent) := rfl
  unfold connectEstablished
  rw [told]
  apply (updateEvents_keeps up.known _).bind
  intro reading enabled
  exact (up.trans enabled).trans (enabled.known.emit _)

theorem disconnect_keeps (known : c.Known) : Spec Buffer.Throws c.Keeps c.disconnect := by
  have down : c.Keeps (c.setState .kDisconnected) := known.keeps rfl rfl rfl known.output
  apply (updateEvents_keeps down.known kNoneEvent).bind
  intro quiet disabled
  exact (down.trans disabled).trans (disabled.known.emit _)

theorem handleClose_keeps (known : c.Known) : Spec Buffer.Throws c.Keeps c.handleClose := by
  apply (disconnect_keeps known).bind
  intro quiet kept
  exact kept.trans (kept.known.emit .closeCallback)

theorem removeChannel_keeps (known : c.Known) : Spec Buffer.Throws c.Keeps c.removeChannel := by
  obtain ⟨poller, removed, registered, onlyAt⟩ :=
    EPollPoller.removeChannel_registered known.registered c.channel.events
  simp only [removeChannel, removed, bind, Except.bind, pure, Except.pure, spec_ok]
  exact ⟨⟨registered, known.input, known.output⟩, onlyAt, rfl⟩

theorem connectDestroyed_keeps (known : c.Known) :
    Spec Buffer.Throws c.Keeps c.connectDestroyed := by
  have down : Spec Buffer.Throws c.Keeps
      (if c.state = .kConnected then c.disconnect else pure c) := by
    split
    · exact disconnect_keeps known
    · exact known.keeps rfl rfl rfl known.output
  apply down.bind
  intro quiet kept
  exact (removeChannel_keeps kept.known).mono fun after removed => kept.trans removed

end TcpConnection

/-- What owns a descriptor of the loop. -/
inductive Watched
  | acceptor (a : Acceptor)
  | connection (conn : TcpConnection)

namespace Watched

def channel : Watched → Channel
  | .acceptor a => a.acceptChannel
  | .connection conn => conn.channel

@[simp] theorem channel_acceptor (a : Acceptor) : (acceptor a).channel = a.acceptChannel := rfl

/-- The buffers of a connection are in order. -/
def Valid : Watched → Prop
  | .acceptor _ => True
  | .connection conn => conn.inputBuffer.Valid ∧ conn.outputBuffer.Valid

end Watched

/-- What the constructor of an owner is given. -/
inductive Owner
  | acceptor (self : Nat)
  | connection (self highWaterMark : Nat) (writeComplete highWater : Bool)

def Owner.create (owner : Owner) (fd : Nat) : Watched :=
  match owner with
  | .acceptor self => .acceptor (Acceptor.create self fd)
  | .connection self highWaterMark writeComplete highWater =>
      .connection (TcpConnection.create self fd highWaterMark writeComplete highWater)

/-- A loop's poller, and the owner of each descriptor it may watch. -/
structure WatchLoop where
  poller : EPollPoller
  watched : Nat → Watched

/-- The calls that change what a descriptor is watched for, and the replacement of an owner
whose channel has left the poller. -/
inductive WatchCall
  | listen (fd : Nat)
  | connectEstablished (fd : Nat)
  | sendInLoop (fd : Nat) (data : ByteString) (result : IoResult)
  | handleWrite (fd : Nat) (results : List IoResult)
  | handleClose (fd : Nat)
  | connectDestroyed (fd : Nat)
  | construct (fd : Nat) (owner : Owner)

namespace WatchLoop

/-- Every owner as its constructor leaves it, and a poller that watches nothing. -/
def start (owner : Nat → Owner) : WatchLoop := ⟨.create, fun fd => (owner fd).create fd⟩

def settle (s : WatchLoop) (fd : Nat) (poller : EPollPoller) (owner : Watched) : WatchLoop :=
  ⟨poller, Function.update s.watched fd owner⟩

/-- A function of a connection, which finds the poller of the loop. -/
def onConnection (s : WatchLoop) (fd : Nat)
    (call : TcpConnection → Except Fault TcpConnection) : Except Fault WatchLoop :=
  match s.watched fd with
  | .acceptor _ => .error .notEnabled
  | .connection conn => do
      let conn ← call { conn with poller := s.poller }
      return s.settle fd conn.poller (.connection conn)

def onAcceptor (s : WatchLoop) (fd : Nat)
    (call : Acceptor → EPollPoller → Except Fault (EPollPoller × Acceptor)) :
    Except Fault WatchLoop :=
  match s.watched fd with
  | .acceptor a => do
      let (poller, a) ← call a s.poller
      return s.settle fd poller (.acceptor a)
  | .connection _ => .error .notEnabled

/-- A descriptor is used again once its channel is out of the poller. -/
def construct (s : WatchLoop) (fd : Nat) (owner : Owner) : Except Fault WatchLoop :=
  if (s.watched fd).channel.index = .kNew then .ok (s.settle fd s.poller (owner.create fd))
  else .error .notEnabled

def step (s : WatchLoop) : WatchCall → Except Fault WatchLoop
  | .listen fd => s.onAcceptor fd Acceptor.listen
  | .connectEstablished fd => s.onConnection fd TcpConnection.connectEstablished
  | .sendInLoop fd data result => s.onConnection fd (·.sendInLoop data result)
  | .handleWrite fd results => s.onConnection fd (·.handleWrite results)
  | .handleClose fd => s.onConnection fd TcpConnection.handleClose
  | .connectDestroyed fd => s.onConnection fd TcpConnection.connectDestroyed
  | .construct fd owner => s.construct fd owner

/-- epoll holds for each registered descriptor the address and the events of its channel. -/
def MasksAgree (s : WatchLoop) : Prop :=
  ∀ fd mask self, s.poller.interest fd = some (mask, self) →
    self = (s.watched fd).channel.self ∧ mask = (s.watched fd).channel.events

/-- A call the owner does not have, or an allocation that fails. -/
def Allowed (fault : Fault) : Prop := fault = .notEnabled ∨ Buffer.Throws fault

/-- A listening socket whose channel is in edge-triggered mode before `listen`. -/
def TellsEdge (s : WatchLoop) : WatchCall → Prop
  | .listen fd =>
      match s.watched fd with
      | .acceptor a => a.acceptChannel.isEdgeTriggered = true
      | .connection _ => True
  | _ => True

/-- The poller holds of every channel what the channel says. -/
structure Told (s : WatchLoop) : Prop where
  fd : ∀ fd, (s.watched fd).channel.fd = fd
  registered : ∀ fd, s.poller.Registered (s.watched fd).channel
  valid : ∀ fd, (s.watched fd).Valid

variable {s : WatchLoop}

theorem start_told (owner : Nat → Owner) : (start owner).Told := by
  refine ⟨fun fd => ?_, fun fd => ?_, fun fd => ?_⟩
  · change ((owner fd).create fd).channel.fd = fd
    cases owner fd <;> rfl
  · change EPollPoller.create.Registered ((owner fd).create fd).channel
    cases owner fd <;> exact ⟨rfl, rfl⟩
  · change ((owner fd).create fd).Valid
    cases owner fd with
    | acceptor self => trivial
    | connection self highWaterMark writeComplete highWater =>
        exact ⟨TcpConnection.defaultBuffer_valid, TcpConnection.defaultBuffer_valid⟩

theorem Told.masksAgree (told : s.Told) : s.MasksAgree := by
  intro fd mask self held
  have interest := (told.registered fd).interest
  rw [told.fd fd, held] at interest
  split at interest
  · cases interest
    exact ⟨rfl, rfl⟩
  · cases interest

/-- What is done at one descriptor leaves the others as they are. -/
theorem Told.settle (told : s.Told) {fd : Nat} {poller : EPollPoller} {owner : Watched}
    (same : owner.channel.fd = fd) (registered : poller.Registered owner.channel)
    (onlyAt : s.poller.OnlyAt fd poller) (valid : owner.Valid) :
    (s.settle fd poller owner).Told := by
  have at' (other : Nat) : (s.settle fd poller owner).watched other =
      if other = fd then owner else s.watched other :=
    Function.update_apply _ _ _ _
  refine ⟨fun other => ?_, fun other => ?_, fun other => ?_⟩
  all_goals rw [at' other]; split
  · rename_i here
    rw [same, here]
  · exact told.fd other
  · exact registered
  · rename_i elsewhere
    exact (told.registered other).onlyAt onlyAt (by rwa [told.fd other])
  · exact valid
  · exact told.valid other

theorem onConnection_told (told : s.Told) (fd : Nat)
    {call : TcpConnection → Except Fault TcpConnection}
    (keeps : ∀ c : TcpConnection, c.Known → Spec Buffer.Throws c.Keeps (call c)) :
    Spec Allowed Told (s.onConnection fd call) := by
  have same := told.fd fd
  have registered := told.registered fd
  have valid := told.valid fd
  unfold onConnection
  cases owner : s.watched fd with
  | acceptor a => exact .inl rfl
  | connection conn =>
      rw [owner] at same registered valid
      have kept := keeps { conn with poller := s.poller } ⟨registered, valid.1, valid.2⟩
      dsimp only
      cases called : call { conn with poller := s.poller } with
      | error fault =>
          rw [called] at kept
          exact .inr kept
      | ok after =>
          rw [called] at kept
          have onlyAt : s.poller.OnlyAt conn.channel.fd after.poller := kept.onlyAt
          rw [show conn.channel.fd = fd from same] at onlyAt
          exact told.settle (kept.fd.trans same) kept.known.registered onlyAt
            ⟨kept.known.input, kept.known.output⟩

/-- `listen` registers read interest; the flag is in the channel only. -/
theorem listen_eq (told : s.Told) {fd : Nat} {a : Acceptor} (owner : s.watched fd = .acceptor a) :
    ∃ poller ch, s.step (.listen fd) = .ok (s.settle fd poller (.acceptor ⟨ch.enableET, true⟩)) ∧
      ch.fd = fd ∧ ch.events = a.acceptChannel.events ||| kReadEvent ∧ ch.index = .kAdded ∧
      poller.Registered ch ∧ s.poller.OnlyAt fd poller := by
  have same := told.fd fd
  have registered := told.registered fd
  rw [owner, Watched.channel_acceptor] at same registered
  obtain ⟨poller, updated, known, onlyAt⟩ := EPollPoller.updateChannel_registered registered
    (a.acceptChannel.events ||| kReadEvent)
  rw [same] at onlyAt
  have some : a.acceptChannel.events ||| kReadEvent ≠ kNoneEvent := by
    intro none
    have bit := congrArg (BitVec.getLsbD · 0) none
    simp [kReadEvent, EPOLLIN, EPOLLPRI, kNoneEvent] at bit
  refine ⟨poller, { a.acceptChannel with
      events := a.acceptChannel.events ||| kReadEvent
      index := EPollPoller.nextIndex a.acceptChannel.index
        (a.acceptChannel.events ||| kReadEvent) }, ?_, same, rfl, ?_, known, onlyAt⟩
  · change s.onAcceptor fd Acceptor.listen = _
    simp only [onAcceptor, owner, Acceptor.listen, bind, Except.bind, updated]
    rfl
  · simp [EPollPoller.nextIndex, some]

theorem construct_told (told : s.Told) (fd : Nat) (owner : Owner) :
    Spec Allowed Told (s.construct fd owner) := by
  have registered := told.registered fd
  unfold construct
  split
  · rename_i new
    have channels := registered.channels
    have interest := registered.interest
    simp only [new, told.fd fd, ↓reduceIte, reduceCtorEq] at channels interest
    have onlyAt : s.poller.OnlyAt fd s.poller := ⟨fun _ _ => rfl, fun _ _ => rfl⟩
    cases owner with
    | acceptor self => exact told.settle rfl ⟨channels, interest⟩ onlyAt trivial
    | connection self highWaterMark writeComplete highWater =>
        exact told.settle rfl ⟨channels, interest⟩ onlyAt
          ⟨TcpConnection.defaultBuffer_valid, TcpConnection.defaultBuffer_valid⟩
  · exact .inl rfl

theorem step_told (told : s.Told) {call : WatchCall} (tells : s.TellsEdge call) :
    Spec Allowed Told (s.step call) := by
  cases call with
  | connectEstablished fd =>
      exact onConnection_told told fd fun c known => TcpConnection.connectEstablished_keeps known
  | sendInLoop fd data result =>
      exact onConnection_told told fd fun c known =>
        TcpConnection.sendInLoop_keeps known data result
  | handleWrite fd results =>
      exact onConnection_told told fd fun c known => TcpConnection.handleWrite_keeps known results
  | handleClose fd =>
      exact onConnection_told told fd fun c known => TcpConnection.handleClose_keeps known
  | connectDestroyed fd =>
      exact onConnection_told told fd fun c known => TcpConnection.connectDestroyed_keeps known
  | construct fd owner => exact construct_told told fd owner
  | listen fd =>
      cases owner : s.watched fd with
      | connection conn =>
          simp only [step, onAcceptor, owner]
          exact .inl rfl
      | acceptor a =>
          obtain ⟨poller, ch, listened, same, events, added, registered, onlyAt⟩ :=
            listen_eq told owner
          have set : ch.isEdgeTriggered = true := by
            simp only [TellsEdge, owner, Channel.isEdgeTriggered_eq] at tells
            simp [Channel.isEdgeTriggered_eq, events, tells]
          have told' : ch.enableET = ch :=
            congrArg (fun mask => { ch with events := mask })
              ((Channel.enableET_events_iff ch).mpr set)
          rw [listened, told']
          exact told.settle same registered onlyAt trivial

/-- A flag that was not set before `listen` is not known to epoll after it. -/
theorem listen_disagrees (told : s.Told) {call : WatchCall} (hidden : ¬ s.TellsEdge call) :
    ∃ after, s.step call = .ok after ∧ ¬ after.MasksAgree := by
  cases call with
  | listen fd =>
      cases owner : s.watched fd with
      | connection conn => simp [TellsEdge, owner] at hidden
      | acceptor a =>
          obtain ⟨poller, ch, listened, same, events, added, registered, onlyAt⟩ :=
            listen_eq told owner
          have unset : ¬ ch.isEdgeTriggered = true := by
            simp only [TellsEdge, owner, Channel.isEdgeTriggered_eq] at hidden
            simpa [Channel.isEdgeTriggered_eq, events, kReadEvent, EPOLLIN, EPOLLPRI] using hidden
          refine ⟨_, listened, fun agree => unset ?_⟩
          have held := registered.interest
          rw [same, if_pos added] at held
          have mask := (agree fd ch.events ch.self held).2
          simp only [settle, Function.update_self, Watched.channel] at mask
          exact (Channel.enableET_events_iff ch).mp mask.symm
  | connectEstablished fd => exact absurd trivial hidden
  | sendInLoop fd data result => exact absurd trivial hidden
  | handleWrite fd results => exact absurd trivial hidden
  | handleClose fd => exact absurd trivial hidden
  | connectDestroyed fd => exact absurd trivial hidden
  | construct fd owner => exact absurd trivial hidden

/-- epoll watches every descriptor as its channel says exactly when no acceptor listens
before its channel is in edge-triggered mode. -/
theorem masksAgree_iff (owner : Nat → Owner) (calls : List WatchCall) :
    Always step MasksAgree Allowed (start owner) calls ↔
      Guarded step TellsEdge (start owner) calls := by
  refine always_iff_guarded Told (fun state told => told.masksAgree) ?_ ?_ ?_ ?_
    (start_told owner) calls
  · intro state call next told tells taken
    exact (step_told told tells).of_ok taken
  · intro state call fault told tells failed
    exact (step_told told tells).of_error failed
  · intro state call next told hidden taken
    obtain ⟨after, taken', disagrees⟩ := listen_disagrees told hidden
    rw [taken] at taken'
    cases taken'
    exact disagrees
  · intro state call fault told hidden failed
    obtain ⟨after, taken, -⟩ := listen_disagrees told hidden
    rw [failed] at taken
    cases taken

/-- The first `listen` of an acceptor: epoll watches it level-triggered. -/
theorem listen_level_triggered :
    ¬ Always step MasksAgree Allowed (start fun _ => .acceptor 0) [.listen 3] := by
  intro always
  have agree := always.2
  simp only [Always, step, onAcceptor, start, Owner.create] at agree
  have mask := (agree 3 kReadEvent 0 (by rfl)).2
  revert mask
  decide

end WatchLoop

end KamaWebserver
