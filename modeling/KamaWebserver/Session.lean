import KamaWebserver.Library.Transition
import KamaWebserver.TcpConnectionEvents

set_option autoImplicit false

namespace KamaWebserver

open Outcome Trace Transition

/-- The callbacks `handleEventWithGuard` can call. -/
inductive Handler
  | close
  | error
  | read
  | write
  deriving DecidableEq, Repr

/-- `handleEventWithGuard`: the callbacks of one event mask, in the order of its tests. -/
def handlersOf (revents : EventMask) : List Handler :=
  (if revents &&& EPOLLHUP ≠ 0 ∧ revents &&& EPOLLIN = 0 then [.close] else []) ++
    (if revents &&& EPOLLERR ≠ 0 then [.error] else []) ++
    (if revents &&& (EPOLLIN ||| EPOLLPRI) ≠ 0 then [.read] else []) ++
    (if revents &&& EPOLLOUT ≠ 0 then [.write] else [])

/-- A call on another thread, behind its test of `state_`: what it does next. -/
inductive UserCall
  | queueSend (data : ByteString)
  | queueSendFile (file : List UInt8) (offset count : Nat)
  | storeDisconnecting
  | queueShutdown
  deriving DecidableEq

/-- One connection between its loop, the server and the application's threads:
`handlers` are the callbacks still to run for the current event, `calls` the calls in
flight on other threads, `tabled` says whether the server's table holds the connection,
`removed` counts the runs of `removeConnectionInLoop`. -/
structure Session where
  conn : TcpConnection
  handlers : List Handler
  calls : List UserCall
  tabled : Bool
  removed : Nat
  destroyed : Bool

/-- The steps of a session. Those of the loop's thread are handlers, functors and calls
made in callbacks; `other` and `advance` are steps of other threads. -/
inductive SessionEvent
  | handleEvent (revents : EventMask)
  | handleClose
  | handleError
  | handleRead (result : ReadResult)
  | handleWrite (results : List IoResult)
  | doPendingFunctors
  | runFunctor (result : IoResult)
  | retrieve (len : Nat)
  | send (data : ByteString) (result : IoResult)
  | sendFile (file : List UInt8) (offset count : Nat) (result : IoResult) (between : Option Nat)
  | shutdown
  | other (call : UserCall)
  | advance (index : Nat)
  | storeOverwritten (index : Nat)
  | removeConnectionInLoop
  | destroyServer (inLoopThread : Bool)

namespace UserCall

/-- The bytes of an accepted call not yet queued. -/
def work : UserCall → List UInt8
  | .queueSend data => data.bytes
  | .queueSendFile file offset count => fileSegment file offset count
  | _ => []

/-- The call marks what it was given as accepted. -/
def begin (call : UserCall) (c : TcpConnection) : TcpConnection :=
  match call with
  | .queueSend _ => c.emit (.accept call.work)
  | .queueSendFile _ _ _ => c.emit (.accept call.work)
  | _ => c

/-- The next step of a call, and what is left of the call. -/
def advance (call : UserCall) (c : TcpConnection) : TcpConnection × Option UserCall :=
  match call with
  | .queueSend data => (c.queueInLoop (.sendInLoop data), none)
  | .queueSendFile file offset count => (c.queueInLoop (.sendFileInLoop file offset count), none)
  | .storeDisconnecting => (c.setState .kDisconnecting, some .queueShutdown)
  | .queueShutdown => (c.queueInLoop .shutdownInLoop, none)

end UserCall

namespace Session

/-- epoll reports a registered descriptor only, and only the events watched for,
errors and hang-ups. -/
def reported (c : TcpConnection) (revents : EventMask) : Bool :=
  match c.poller.interest c.channel.fd with
  | none => false
  | some (mask, _) => revents &&& ~~~ (mask ||| EPOLLERR ||| EPOLLHUP) = 0

/-- One step of the call at `index`. -/
def advance (s : Session) (index : Nat) : Except Fault Session :=
  match s.calls[index]? with
  | none => .error .notEnabled
  | some call =>
      let (conn, rest) := call.advance s.conn
      .ok { s with conn, calls := s.calls.take index ++ rest.toList ++ s.calls.drop (index + 1) }

/-- The step another thread takes at this point, if any. -/
def interleave (s : Session) : Option Nat → Except Fault Session
  | none => .ok s
  | some index => s.advance index

/-- A call made on the loop's own thread is accepted. -/
def accept (s : Session) (payload : List UInt8) : Session :=
  { s with conn := s.conn.emit (.accept payload) }

/-- Run the next callback of the current event, which must be `handler`; the flag says
whether it has more to do. -/
def runHandler (s : Session) (handler : Handler)
    (body : TcpConnection → Except Fault (TcpConnection × Bool)) : Except Fault Session :=
  match s.handlers with
  | [] => .error .notEnabled
  | next :: rest =>
      if next = handler then do
        let (conn, again) ← body s.conn
        return { s with conn, handlers := if again then s.handlers else rest }
      else .error .notEnabled

def doPendingFunctors (s : Session) : Except Fault Session :=
  if s.handlers = [] ∧ s.conn.functors = [] then
    .ok { s with conn := s.conn.swapFunctors }
  else .error .notEnabled

def runFunctor (s : Session) (result : IoResult) : Except Fault Session :=
  match s.conn.functors with
  | [] => .error .notEnabled
  | functor :: functors => do
      let conn ← (s.conn.setBatch functors).runFunctor functor result
      return { s with conn, destroyed := s.destroyed || functor = .connectDestroyed }

/-- `sendFile` on the loop's own thread. It reads `state_` twice, in `connected()` and
in `sendFileInLoop`, and another thread's step may fall between. -/
def sendFile (s : Session) (file : List UInt8) (offset count : Nat) (result : IoResult)
    (between : Option Nat) : Except Fault Session :=
  if s.conn.connected then do
    let s ← (s.accept (fileSegment file offset count)).interleave between
    return { s with conn := s.conn.sendFileInLoop file offset count result }
  else .ok s

/-- `removeConnectionInLoop`, once for each closeCallback. -/
def removeConnectionInLoop (s : Session) : Except Fault Session :=
  if s.removed < s.conn.trace.count .closeCallback then
    .ok { s with
      conn := s.conn.queueInLoop .connectDestroyed
      tabled := false
      removed := s.removed + 1 }
  else .error .notEnabled

/-- `~TcpServer` for this connection. -/
def destroyServer (s : Session) (inLoopThread : Bool) : Except Fault Session :=
  if s.tabled then
    if inLoopThread then
      if s.handlers = [] then do
        let conn ← s.conn.connectDestroyed
        return { s with conn, tabled := false, destroyed := true }
      else .error .notEnabled
    else .ok { s with conn := s.conn.queueInLoop .connectDestroyed, tabled := false }
  else .error .notEnabled

def step (s : Session) : SessionEvent → Except Fault Session
  | .handleEvent revents =>
      if s.handlers = [] ∧ s.conn.functors = [] ∧ reported s.conn revents then
        .ok { s with handlers := handlersOf revents }
      else .error .notEnabled
  | .handleClose => s.runHandler .close fun c => c.handleClose.map (·, false)
  | .handleError => s.runHandler .error fun c => c.handleError.map (·, false)
  | .handleRead result => s.runHandler .read fun c => c.readOnce result
  | .handleWrite results => s.runHandler .write fun c => (c.handleWrite results).map (·, false)
  | .doPendingFunctors => s.doPendingFunctors
  | .runFunctor result => s.runFunctor result
  | .retrieve len =>
      .ok { s with conn := s.conn.retrieveInput len }
  | .send data result => do
      let conn ← s.conn.send data result
      return { s with conn }
  | .sendFile file offset count result between => s.sendFile file offset count result between
  | .shutdown => .ok { s with conn := s.conn.shutdown }
  | .other call =>
      if s.conn.connected ∧ call ≠ .queueShutdown then
        .ok { s with conn := call.begin s.conn, calls := s.calls ++ [call] }
      else .error .notEnabled
  | .advance index => s.advance index
  | .storeOverwritten index =>
      if s.calls[index]? = some .storeDisconnecting ∧ s.conn.state = .kDisconnected then
        .ok { s with calls := s.calls.set index .queueShutdown }
      else .error .notEnabled
  | .removeConnectionInLoop => s.removeConnectionInLoop
  | .destroyServer inLoopThread => s.destroyServer inLoopThread

/-- What is fixed when a connection is built. -/
structure Config where
  self : Nat
  fd : Nat
  highWaterMark : Nat
  writeCompleteCallback : Bool
  highWaterMarkCallback : Bool

/-- A connection without optional callbacks. -/
def plainConfig : Config := ⟨1, 7, 67108864, false, false⟩

/-- A connection whose `connectEstablished` has run. -/
def established (config : Config) : TcpConnection :=
  { TcpConnection.create config.self config.fd config.highWaterMark
      config.writeCompleteCallback config.highWaterMarkCallback with
    state := .kConnected
    channel := ⟨config.self, config.fd, kNoneEvent ||| EPOLLET ||| kReadEvent, .kAdded⟩
    poller := ⟨Function.update (fun _ => none) config.fd (some config.self),
      Function.update (fun _ => none) config.fd
        (some (kNoneEvent ||| EPOLLET ||| kReadEvent, config.self))⟩
    trace := [.connectionCallback true] }

/-- A session just after `connectEstablished`. -/
def start (config : Config) : Session := ⟨established config, [], [], true, 0, false⟩

/-- What each step requires and does, read off `step` once. -/
inductive Step (s : Session) : SessionEvent → Session → Prop
  | handleEvent (revents : EventMask) (idle : s.handlers = []) (between : s.conn.functors = [])
      (seen : reported s.conn revents = true) :
      Step s (.handleEvent revents) { s with handlers := handlersOf revents }
  | handleClose (rest : List Handler) (conn : TcpConnection)
      (waiting : s.handlers = .close :: rest) (closed : s.conn.handleClose = .ok conn) :
      Step s .handleClose { s with conn, handlers := rest }
  | handleError (rest : List Handler) (conn : TcpConnection)
      (waiting : s.handlers = .error :: rest) (closed : s.conn.handleClose = .ok conn) :
      Step s .handleError { s with conn, handlers := rest }
  | handleRead (result : ReadResult) (rest : List Handler) (conn : TcpConnection) (again : Bool)
      (waiting : s.handlers = .read :: rest) (read : s.conn.readOnce result = .ok (conn, again)) :
      Step s (.handleRead result) { s with conn, handlers := if again then s.handlers else rest }
  | handleWrite (results : List IoResult) (rest : List Handler) (conn : TcpConnection)
      (waiting : s.handlers = .write :: rest) (wrote : s.conn.handleWrite results = .ok conn) :
      Step s (.handleWrite results) { s with conn, handlers := rest }
  | doPendingFunctors (idle : s.handlers = []) (between : s.conn.functors = []) :
      Step s .doPendingFunctors { s with conn := s.conn.swapFunctors }
  | runFunctor (result : IoResult) (functor : Functor) (functors : List Functor)
      (conn : TcpConnection) (batch : s.conn.functors = functor :: functors)
      (ran : (s.conn.setBatch functors).runFunctor functor result = .ok conn) :
      Step s (.runFunctor result)
        { s with conn, destroyed := s.destroyed || functor = .connectDestroyed }
  | retrieve (len : Nat) : Step s (.retrieve len) { s with conn := s.conn.retrieveInput len }
  | send (data : ByteString) (result : IoResult) (conn : TcpConnection)
      (up : s.conn.state = .kConnected)
      (ran : (s.conn.emit (.accept data.bytes)).sendInLoop data result = .ok conn) :
      Step s (.send data result) { s with conn }
  | sendRefused (data : ByteString) (result : IoResult) (down : s.conn.state ≠ .kConnected) :
      Step s (.send data result) s
  | sendFile (file : List UInt8) (offset count : Nat) (result : IoResult)
      (between : Option Nat) (middle : Session) (up : s.conn.state = .kConnected)
      (other : (s.accept (fileSegment file offset count)).interleave between = .ok middle) :
      Step s (.sendFile file offset count result between)
        { middle with conn := middle.conn.sendFileInLoop file offset count result }
  | sendFileRefused (file : List UInt8) (offset count : Nat) (result : IoResult)
      (between : Option Nat) (down : s.conn.state ≠ .kConnected) :
      Step s (.sendFile file offset count result between) s
  | shutdown (up : s.conn.state = .kConnected) :
      Step s .shutdown { s with conn := (s.conn.setState .kDisconnecting).shutdownInLoop }
  | shutdownRefused (down : s.conn.state ≠ .kConnected) : Step s .shutdown s
  | other (call : UserCall) (up : s.conn.state = .kConnected) (first : call ≠ .queueShutdown) :
      Step s (.other call) { s with conn := call.begin s.conn, calls := s.calls ++ [call] }
  | advance (index : Nat) (after : Session) (taken : s.advance index = .ok after) :
      Step s (.advance index) after
  | storeOverwritten (index : Nat) (found : s.calls[index]? = some .storeDisconnecting)
      (down : s.conn.state = .kDisconnected) :
      Step s (.storeOverwritten index) { s with calls := s.calls.set index .queueShutdown }
  | removeConnectionInLoop (closed : s.removed < s.conn.trace.count .closeCallback) :
      Step s .removeConnectionInLoop
        { s with
          conn := s.conn.queueInLoop .connectDestroyed
          tabled := false
          removed := s.removed + 1 }
  | destroyHere (conn : TcpConnection) (tabled : s.tabled = true) (idle : s.handlers = [])
      (ran : s.conn.connectDestroyed = .ok conn) :
      Step s (.destroyServer true) { s with conn, tabled := false, destroyed := true }
  | destroyElsewhere (tabled : s.tabled = true) :
      Step s (.destroyServer false)
        { s with conn := s.conn.queueInLoop .connectDestroyed, tabled := false }

variable {s after : Session}

theorem advance_ok {index : Nat} (taken : s.advance index = .ok after) :
    ∃ call, s.calls[index]? = some call ∧
      after = { s with
        conn := (call.advance s.conn).1
        calls := s.calls.take index ++ (call.advance s.conn).2.toList ++
          s.calls.drop (index + 1) } := by
  unfold advance at taken
  cases found : s.calls[index]? with
  | none => simp [found] at taken
  | some call =>
      simp only [found] at taken
      cases taken
      exact ⟨call, rfl, rfl⟩

theorem runHandler_ok {handler : Handler}
    {body : TcpConnection → Except Fault (TcpConnection × Bool)}
    (taken : s.runHandler handler body = .ok after) :
    ∃ rest conn again, s.handlers = handler :: rest ∧ body s.conn = .ok (conn, again) ∧
      after = { s with conn, handlers := if again then s.handlers else rest } := by
  unfold runHandler at taken
  cases waiting : s.handlers with
  | nil => simp [waiting] at taken
  | cons next rest =>
      simp only [waiting] at taken
      split at taken
      · rename_i same
        obtain ⟨⟨conn, again⟩, ran, returned⟩ := (bind_ok_iff _ _ _).mp taken
        cases returned
        exact ⟨rest, conn, again, by rw [same], ran, rfl⟩
      · cases taken

/-- A handler that runs once leaves the queue of handlers. -/
theorem runHandler_once {handler : Handler} (body : TcpConnection → Except Fault TcpConnection)
    (taken : s.runHandler handler (fun c => (body c).map (·, false)) = .ok after) :
    ∃ rest conn, s.handlers = handler :: rest ∧ body s.conn = .ok conn ∧
      after = { s with conn, handlers := rest } := by
  obtain ⟨rest, conn, again, waiting, ran, rfl⟩ := runHandler_ok taken
  obtain ⟨value, closed, same⟩ := (map_ok_iff _ _ _).mp ran
  cases same
  exact ⟨rest, conn, waiting, closed, rfl⟩

theorem step_inv {event : SessionEvent} (taken : s.step event = .ok after) :
    Step s event after := by
  cases event with
  | handleEvent revents =>
      obtain ⟨⟨idle, between, seen⟩, returned⟩ := guard_ok taken
      cases returned
      exact .handleEvent revents idle between seen
  | handleClose =>
      obtain ⟨rest, conn, waiting, closed, rfl⟩ := runHandler_once _ taken
      exact .handleClose rest conn waiting closed
  | handleError =>
      obtain ⟨rest, conn, waiting, closed, rfl⟩ := runHandler_once _ taken
      exact .handleError rest conn waiting closed
  | handleRead result =>
      simp only [step] at taken
      obtain ⟨rest, conn, again, waiting, read, rfl⟩ := runHandler_ok taken
      exact .handleRead result rest conn again waiting read
  | handleWrite results =>
      obtain ⟨rest, conn, waiting, wrote, rfl⟩ :=
        runHandler_once (fun c => c.handleWrite results) taken
      exact .handleWrite results rest conn waiting wrote
  | doPendingFunctors =>
      obtain ⟨⟨idle, between⟩, returned⟩ := guard_ok taken
      cases returned
      exact .doPendingFunctors idle between
  | runFunctor result =>
      simp only [step, runFunctor] at taken
      cases batch : s.conn.functors with
      | nil => simp [batch] at taken
      | cons functor functors =>
          simp only [batch] at taken
          obtain ⟨conn, ran, returned⟩ := (bind_ok_iff _ _ _).mp taken
          cases returned
          exact .runFunctor result functor functors conn batch ran
  | retrieve len =>
      cases taken
      exact .retrieve len
  | send data result =>
      obtain ⟨conn, ran, returned⟩ := (bind_ok_iff _ _ _).mp taken
      cases returned
      simp only [TcpConnection.send] at ran
      split at ran
      · rename_i up
        exact .send data result conn up ran
      · rename_i down
        cases ran
        exact .sendRefused data result down
  | sendFile file offset count result between =>
      simp only [step, sendFile, TcpConnection.connected, decide_eq_true_eq] at taken
      split at taken
      · rename_i up
        obtain ⟨middle, other, returned⟩ := (bind_ok_iff _ _ _).mp taken
        cases returned
        exact .sendFile file offset count result between middle up other
      · rename_i down
        cases taken
        exact .sendFileRefused file offset count result between down
  | shutdown =>
      cases taken
      simp only [TcpConnection.shutdown]
      split
      · rename_i up
        exact .shutdown up
      · rename_i down
        exact .shutdownRefused down
  | other call =>
      simp only [step, TcpConnection.connected, decide_eq_true_eq] at taken
      obtain ⟨⟨up, first⟩, returned⟩ := guard_ok taken
      cases returned
      exact .other call up first
  | advance index => exact .advance index after taken
  | storeOverwritten index =>
      obtain ⟨⟨found, down⟩, returned⟩ := guard_ok taken
      cases returned
      exact .storeOverwritten index found down
  | removeConnectionInLoop =>
      obtain ⟨closed, returned⟩ := guard_ok taken
      cases returned
      exact .removeConnectionInLoop closed
  | destroyServer inLoopThread =>
      obtain ⟨tabled, destroyed⟩ := guard_ok taken
      cases inLoopThread with
      | true =>
          obtain ⟨idle, called⟩ := guard_ok destroyed
          obtain ⟨conn, ran, returned⟩ := (bind_ok_iff _ _ _).mp called
          cases returned
          exact .destroyHere conn tabled idle ran
      | false =>
          cases destroyed
          exact .destroyElsewhere tabled

theorem established_sound (config : Config) : (established config).Sound :=
  ⟨TcpConnection.defaultBuffer_valid, TcpConnection.defaultBuffer_valid,
    by simp [EPollPoller.Agrees, established]⟩

/-- A new connection has nothing buffered and no write interest. -/
theorem established_watched (config : Config) : (established config).Watched := by
  have idle : (established config).channel.isWriting = false := by
    show ((kNoneEvent ||| EPOLLET ||| kReadEvent) &&& kWriteEvent != 0#32) = false
    decide
  have empty : (established config).readable = [] := Block.window_empty _ _
  simp [TcpConnection.Watched, idle, empty]

end Session

namespace TcpConnection

variable {c after : TcpConnection}

theorem Sound.setState (sound : c.Sound) (state : ConnState) : (c.setState state).Sound :=
  ⟨sound.input, sound.output, sound.registered⟩

theorem Sound.queueInLoop (sound : c.Sound) (functor : Functor) : (c.queueInLoop functor).Sound :=
  ⟨sound.input, sound.output, sound.registered⟩

theorem Sound.swapFunctors (sound : c.Sound) : c.swapFunctors.Sound :=
  ⟨sound.input, sound.output, sound.registered⟩

theorem Sound.setBatch (sound : c.Sound) (functors : List Functor) : (c.setBatch functors).Sound :=
  ⟨sound.input, sound.output, sound.registered⟩

theorem Sound.retrieveInput (sound : c.Sound) (len : Nat) : (c.retrieveInput len).Sound :=
  ⟨(sound.input.retrieve len).1, sound.output, sound.registered⟩

/-- What the loop runs leaves the connection sound and queues notices only, behind the functors
that wait. -/
structure Runs (c after : TcpConnection) : Prop where
  sound : after.Sound
  functors : after.functors = c.functors
  pending : ∃ added, after.pendingFunctors = c.pendingFunctors ++ added ∧
    ∀ functor ∈ added, functor.isOutput = true

theorem Runs.of_same (sound : after.Sound) (functors : after.functors = c.functors)
    (pending : after.pendingFunctors = c.pendingFunctors) : c.Runs after :=
  ⟨sound, functors, [], by rw [pending, List.append_nil], nofun⟩

theorem Extends.runs {left : List UInt8} {effects : List Effect}
    (extended : c.Extends after left effects) : c.Runs after := by
  obtain ⟨added, queued, -, own⟩ := extended.pending
  exact ⟨extended.sound, extended.functors, added, queued, own⟩

theorem Switches.runs {state : ConnState} {effects : List Effect}
    (switched : c.Switches after state effects) : c.Runs after :=
  .of_same switched.sound switched.functors switched.pendingFunctors

theorem handleClose_runs (sound : c.Sound) (closed : c.handleClose = .ok after) :
    c.Runs after := by
  obtain ⟨next, returned, switched, -⟩ := handleClose_ok sound
  cases returned.symm.trans closed
  exact switched.runs

theorem readOnce_runs (sound : c.Sound) {result : ReadResult} {again : Bool}
    (read : c.readOnce result = .ok (after, again)) : c.Runs after := by
  cases closes : c.closesOnRead result with
  | true =>
      obtain ⟨next, returned, switched, -⟩ := readOnce_closes sound result closes
      cases returned.symm.trans read
      exact switched.runs
  | false =>
      obtain ⟨kept, -, -, -, functors, pending, -⟩ :=
        (readOnce_keeps sound result closes).of_ok read
      exact .of_same kept functors pending

theorem handleWrite_runs (sound : c.Sound) {results : List IoResult}
    (wrote : c.handleWrite results = .ok after) : c.Runs after := by
  obtain ⟨next, effects, returned, extended, -⟩ := handleWrite_ok sound results
  cases returned.symm.trans wrote
  exact extended.runs

theorem connectDestroyed_runs (sound : c.Sound) (ran : c.connectDestroyed = .ok after) :
    c.Runs after := by
  obtain ⟨next, returned, outcome⟩ := connectDestroyed_ok sound
  cases returned.symm.trans ran
  split at outcome
  · exact outcome.1.runs
  · exact outcome.1.runs

theorem sendFileInLoop_runs (sound : c.Sound) (file : List UInt8) (offset count : Nat)
    (result : IoResult) : c.Runs (c.sendFileInLoop file offset count result) := by
  obtain ⟨left, extended, -⟩ := sendFileInLoop_extends sound file offset count result
  exact extended.runs

theorem sendInLoop_runs (sound : c.Sound) {data : ByteString} {result : IoResult}
    (ran : c.sendInLoop data result = .ok after) : c.Runs after := by
  obtain ⟨effects, extended, -⟩ := (sendInLoop_spec sound data result).of_ok ran
  exact extended.runs

theorem runFunctor_runs (sound : c.Sound) {functor : Functor} {result : IoResult}
    (ran : c.runFunctor functor result = .ok after) : c.Runs after := by
  cases functor with
  | connectEstablished =>
      obtain ⟨next, returned, switched, -⟩ := connectEstablished_ok sound
      cases returned.symm.trans ran
      exact switched.runs
  | connectDestroyed => exact connectDestroyed_runs sound ran
  | sendInLoop data => exact sendInLoop_runs sound ran
  | sendFileInLoop file offset count =>
      cases ran
      exact sendFileInLoop_runs sound file offset count result
  | shutdownInLoop =>
      cases ran
      exact (shutdownInLoop_extends sound).runs
  | writeComplete =>
      cases ran
      exact .of_same sound rfl rfl
  | highWaterMark pending =>
      cases ran
      exact .of_same sound rfl rfl

end TcpConnection

namespace Session

variable {s after : Session}

theorem accept_sound (sound : s.conn.Sound) (payload : List UInt8) :
    (s.accept payload).conn.Sound :=
  sound.emit _

theorem begin_sound (sound : s.conn.Sound) (call : UserCall) : (call.begin s.conn).Sound := by
  cases call with
  | queueSend data => exact sound.emit _
  | queueSendFile file offset count => exact sound.emit _
  | storeDisconnecting => exact sound
  | queueShutdown => exact sound

theorem advance_sound (sound : s.conn.Sound) {index : Nat} (taken : s.advance index = .ok after) :
    after.conn.Sound := by
  obtain ⟨call, -, rfl⟩ := advance_ok taken
  cases call with
  | queueSend data => exact sound.queueInLoop _
  | queueSendFile file offset count => exact sound.queueInLoop _
  | storeDisconnecting => exact sound.setState _
  | queueShutdown => exact sound.queueInLoop _

theorem interleave_sound (sound : s.conn.Sound) {between : Option Nat}
    (taken : s.interleave between = .ok after) : after.conn.Sound := by
  cases between with
  | none =>
      cases taken
      exact sound
  | some index => exact advance_sound sound taken

/-- Every step keeps the buffers in order and the poller's bookkeeping right. -/
theorem step_sound {event : SessionEvent} (sound : s.conn.Sound)
    (taken : s.step event = .ok after) : after.conn.Sound := by
  cases step_inv taken with
  | handleEvent revents idle between seen => exact sound
  | handleClose rest conn waiting closed =>
      exact (TcpConnection.handleClose_runs sound closed).sound
  | handleError rest conn waiting closed =>
      exact (TcpConnection.handleClose_runs sound closed).sound
  | handleRead result rest conn again waiting read =>
      exact (TcpConnection.readOnce_runs sound read).sound
  | handleWrite results rest conn waiting wrote =>
      exact (TcpConnection.handleWrite_runs sound wrote).sound
  | doPendingFunctors idle between => exact sound.swapFunctors
  | runFunctor result functor functors conn batch ran =>
      exact (TcpConnection.runFunctor_runs (sound.setBatch _) ran).sound
  | retrieve len => exact sound.retrieveInput len
  | send data result conn up ran => exact (TcpConnection.sendInLoop_runs (sound.emit _) ran).sound
  | sendRefused data result down => exact sound
  | sendFile file offset count result between middle up other =>
      exact (TcpConnection.sendFileInLoop_runs (interleave_sound (accept_sound sound _) other)
        file offset count result).sound
  | sendFileRefused file offset count result between down => exact sound
  | shutdown up => exact (TcpConnection.shutdownInLoop_extends (sound.setState _)).sound
  | shutdownRefused down => exact sound
  | other call up first => exact begin_sound sound call
  | advance index _ moved => exact advance_sound sound moved
  | storeOverwritten index found down => exact sound
  | removeConnectionInLoop closed => exact sound.queueInLoop _
  | destroyHere conn tabled idle ran =>
      exact (TcpConnection.connectDestroyed_runs sound ran).sound
  | destroyElsewhere tabled => exact sound.queueInLoop _

/-- The connection of every reachable session is sound. -/
theorem reachable_sound {config : Config} (reached : Reachable step (start config) s) :
    s.conn.Sound :=
  reached.preserves (fun s : Session => s.conn.Sound)
    (fun _ _ _ sound taken => step_sound sound taken) (established_sound config)

end Session

end KamaWebserver
