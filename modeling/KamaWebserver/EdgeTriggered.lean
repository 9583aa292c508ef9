import KamaWebserver.MaskAgreement
import KamaWebserver.Session

set_option autoImplicit false

namespace KamaWebserver

open Outcome

/-- What epoll watches a socket for: bytes or the end of the stream, room in the send buffer, and
a reset. -/
inductive Source
  | input
  | room
  | reset
  deriving DecidableEq, Repr

namespace Source

def bit : Source → EventMask
  | .input => EPOLLIN
  | .room => EPOLLOUT
  | .reset => EPOLLERR

/-- The callback that sees to it. -/
def handler : Source → Handler
  | .input => .read
  | .room => .write
  | .reset => .error

def all : List Source := [.input, .room, .reset]

/-- A reset is reported whatever the mask of a registered descriptor. -/
def watched (source : Source) (interest : Option EventMask) : Bool :=
  interest.any fun mask => source = .reset || mask &&& source.bit != 0#32

end Source

namespace TcpConnection

/-- The mask the kernel holds for the connection's descriptor. -/
def interest (c : TcpConnection) : Option EventMask :=
  (c.poller.interest c.channel.fd).map Prod.fst

end TcpConnection

/-- A connection and what the kernel knows of its socket: `level` says which sources are there
now, `ready` whether the descriptor is on epoll's ready list. `writing` marks the inside of the
loop of `handleWrite`; `leaving` counts the other threads that are inside `shutdown`, between its
test of `state_` and its store. -/
structure EdgeConnection where
  conn : TcpConnection
  handlers : List Handler
  writing : Bool
  level : Source → Bool
  ready : Bool
  leaving : Nat
  destroyed : Bool

/-- The kernel raises a source or wakes the loop for no reason; the rest happens in the loop. `left`
says whether the system call leaves its source raised. Which functors are queued is left open;
`testConnected` and `storeDisconnecting` are the two steps of `shutdown` on another thread. -/
inductive EdgeEvent
  | raise (source : Source)
  | wake
  | report (revents : EventMask)
  | handleClose
  | handleError
  | handleRead (result : ReadResult) (left : Bool)
  | handleWrite
  | writeOnce (result : IoResult) (left : Bool)
  | retrieve (len : Nat)
  | send (data : ByteString) (result : IoResult) (left : Bool)
  | sendFile (file : List UInt8) (offset count : Nat) (result : IoResult) (left : Bool)
  | shutdown
  | testConnected
  | storeDisconnecting
  | runFunctor (functor : Functor) (result : IoResult) (left : Bool)

/-- No turn of `handleWrite` fails but for a full buffer or a reset. -/
def EdgeEvent.Clean (event : EdgeEvent) : Prop :=
  ∀ code left, event ≠ .writeOnce (.error (.other code)) left

namespace EdgeConnection

/-- The source is there and watched for. -/
def due (e : EdgeConnection) (interest : Option EventMask) (source : Source) : Bool :=
  e.level source && source.watched interest

/-- An edge: the descriptor gets ready when a watched source is raised. -/
def raise (e : EdgeConnection) (source : Source) : EdgeConnection :=
  { e with
    level := Function.update e.level source true
    ready := e.ready || (!e.level source && source.watched e.conn.interest) }

/-- A system call leaves the source raised or not; it never raises it. -/
def lower (e : EdgeConnection) (source : Source) (left : Bool) : EdgeConnection :=
  { e with level := Function.update e.level source (left && e.level source) }

/-- What a function does to the connection. `epoll_ctl` looks at the socket when it is given a new
mask, and forgets the descriptor when it is told to. -/
def settle (e : EdgeConnection) (conn : TcpConnection) : EdgeConnection :=
  { e with
    conn
    ready := if conn.interest = e.conn.interest then e.ready
      else conn.interest.isSome && (e.ready || Source.all.any (e.due conn.interest)) }

/-- `epoll_wait` returns a ready descriptor with what is due, and perhaps more. -/
def report (e : EdgeConnection) (revents : EventMask) : Except Fault EdgeConnection :=
  if e.ready ∧ e.handlers = [] ∧ Session.reported e.conn revents ∧
      ∀ source ∈ Source.all, e.due e.conn.interest source → revents &&& source.bit ≠ 0#32 then
    .ok { e with ready := false, handlers := handlersOf revents }
  else .error .notEnabled

/-- Run the next callback of the current event, which must be `handler`; the flag says whether it
has more to do. -/
def runHandler (e : EdgeConnection) (handler : Handler)
    (result : Except Fault (TcpConnection × Bool)) : Except Fault EdgeConnection :=
  match e.handlers with
  | [] => .error .notEnabled
  | next :: rest =>
      if next = handler then do
        let (conn, again) ← result
        return { e.settle conn with handlers := if again then e.handlers else rest }
      else .error .notEnabled

/-- readv delivers something only when there is something, and EAGAIN says there is nothing. -/
def readable (e : EdgeConnection) : ReadResult → Bool
  | .data _ => e.level .input
  | .error .EAGAIN => !e.level .input
  | .error _ => true

/-- A write takes something exactly when there is room, fails for good only on a reset socket,
and may fail otherwise. -/
def writable (e : EdgeConnection) : IoResult → Bool
  | .count n => e.conn.outputBuffer.readableBytes == 0 || (e.level .room && 0 < n)
  | .error .EAGAIN => !e.level .room
  | .error .EPIPE => e.level .reset
  | .error .ECONNRESET => e.level .reset
  | .error (.other _) => true

def handleRead (e : EdgeConnection) (result : ReadResult) (left : Bool) :
    Except Fault EdgeConnection :=
  if e.readable result then
    (e.lower .input left).runHandler .read (e.conn.readOnce result)
  else .error .notEnabled

/-- The test of `handleWrite`; its loop then writes until a turn is the last one. -/
def handleWrite (e : EdgeConnection) : Except Fault EdgeConnection :=
  if e.writing then .error .notEnabled
  else if e.conn.channel.isWriting then
    if e.handlers.head? = some .write then .ok { e with writing := true } else .error .notEnabled
  else e.runHandler .write (.ok (e.conn, false))

def writeOnce (e : EdgeConnection) (result : IoResult) (left : Bool) :
    Except Fault EdgeConnection :=
  if e.writing ∧ e.writable result then do
    let (conn, again) ← e.conn.writeOnce result
    ({ e.lower .room left with writing := again }).runHandler .write (.ok (conn, again))
  else .error .notEnabled

/-- A call made in a callback. -/
def call (e : EdgeConnection) (result : Except Fault TcpConnection) (left : Bool) :
    Except Fault EdgeConnection :=
  if e.writing then .error .notEnabled
  else result.map (e.lower .room left).settle

/-- Functors run between two reports. `connectEstablished` has run. -/
def runFunctor (e : EdgeConnection) (functor : Functor) (result : IoResult) (left : Bool) :
    Except Fault EdgeConnection :=
  if e.handlers = [] ∧ functor ≠ .connectEstablished then do
    let e' ← e.call (e.conn.runFunctor functor result) left
    return { e' with destroyed := e.destroyed || functor = .connectDestroyed }
  else .error .notEnabled

def sendFile (c : TcpConnection) (file : List UInt8) (offset count : Nat) (result : IoResult) :
    TcpConnection :=
  if c.connected then c.sendFileInLoop file offset count result else c

def step (e : EdgeConnection) : EdgeEvent → Except Fault EdgeConnection
  | .raise source => .ok (e.raise source)
  | .wake => .ok { e with ready := e.ready || e.conn.interest.isSome }
  | .report revents => e.report revents
  | .handleClose => e.runHandler .close (e.conn.handleClose.map (·, false))
  | .handleError => e.runHandler .error (e.conn.handleError.map (·, false))
  | .handleRead result left => e.handleRead result left
  | .handleWrite => e.handleWrite
  | .writeOnce result left => e.writeOnce result left
  | .retrieve len => e.call (.ok (e.conn.retrieveInput len)) true
  | .send data result left => e.call (e.conn.send data result) left
  | .sendFile file offset count result left =>
      e.call (.ok (sendFile e.conn file offset count result)) left
  | .shutdown => e.call (.ok e.conn.shutdown) true
  | .testConnected =>
      if e.conn.connected then .ok { e with leaving := e.leaving + 1 } else .error .notEnabled
  | .storeDisconnecting =>
      if 0 < e.leaving then
        .ok { e.settle (e.conn.setState .kDisconnecting) with leaving := e.leaving - 1 }
      else .error .notEnabled
  | .runFunctor functor result left => e.runFunctor functor result left

/-- A connection just after `connectEstablished`; registering it has made it ready if anything
was there. -/
def start (config : Session.Config) (level : Source → Bool) : EdgeConnection :=
  let e : EdgeConnection := ⟨Session.established config, [], false, level, false, 0, false⟩
  { e with ready := Source.all.any (e.due e.conn.interest) }

/-- Neither `handleClose`, which calls the close callback, nor `connectDestroyed` has run. What
`state_` says is no measure: a late store of `shutdown` can follow `handleClose`. -/
def Live (e : EdgeConnection) : Prop := .closeCallback ∉ e.conn.trace ∧ e.destroyed = false

/-- Whenever the loop waits, an open connection that could read, could send what it holds, or was
reset is on the ready list. -/
def Roused (e : EdgeConnection) : Prop :=
  e.handlers = [] → e.Live →
    (e.level .input = true ∨ e.level .room = true ∧ e.conn.readable ≠ [] ∨ e.level .reset = true) →
      e.ready = true

end EdgeConnection

end KamaWebserver
