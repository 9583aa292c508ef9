import KamaWebserver.Buffer
import KamaWebserver.EPollPoller

set_option autoImplicit false

namespace KamaWebserver

/-- `StateE`. -/
inductive ConnState
  | kDisconnected
  | kConnecting
  | kConnected
  | kDisconnecting
  deriving DecidableEq, Repr

/-- What the io loop's queue can hold for one connection. A file descriptor is
modelled by the content of its file. -/
inductive Functor
  | connectEstablished
  | connectDestroyed
  | sendInLoop (data : ByteString)
  | sendFileInLoop (file : List UInt8) (offset count : Nat)
  | shutdownInLoop
  | writeComplete
  | highWaterMark (pending : Nat)
  deriving DecidableEq

/-- What a connection does that can be seen from outside: system calls with the
bytes the kernel took, callbacks, and functors queued. `accept` marks a send or
sendFile call that passed its test of `state_`, `sendInLoop` the start of that
function. -/
inductive Effect
  | accept (payload : List UInt8)
  | sendInLoop (data : List UInt8)
  | write (bytes : List UInt8)
  | sendfile (bytes : List UInt8)
  | shutdownWrite
  | connectionCallback (connected : Bool)
  | messageCallback
  | closeCallback
  | queueInLoop (functor : Functor)
  deriving DecidableEq

/-- A connection with the queue of its io loop: `pendingFunctors_`, and the batch
`doPendingFunctors` has swapped out and not yet run. The trace is newest first. -/
structure TcpConnection where
  state : ConnState
  channel : Channel
  poller : EPollPoller
  inputBuffer : Buffer
  outputBuffer : Buffer
  highWaterMark : Nat
  writeCompleteCallback : Bool
  highWaterMarkCallback : Bool
  pendingFunctors : List Functor
  functors : List Functor
  trace : List Effect

/-- The bytes of `[offset, offset + count)` the file has. -/
def fileSegment (file : List UInt8) (offset count : Nat) : List UInt8 :=
  (file.drop offset).take count

namespace TcpConnection

/-- A buffer built by the default constructor argument. -/
def defaultBuffer : Buffer :=
  ⟨List.replicate (cheapPrepend + initialSize) 0, cheapPrepend, cheapPrepend⟩

/-- The constructor, with the callbacks the server or the application sets. -/
def create (self fd highWaterMark : Nat) (writeComplete highWater : Bool) : TcpConnection where
  state := .kConnecting
  channel := Channel.create self fd
  poller := EPollPoller.create
  inputBuffer := defaultBuffer
  outputBuffer := defaultBuffer
  highWaterMark := highWaterMark
  writeCompleteCallback := writeComplete
  highWaterMarkCallback := highWater
  pendingFunctors := []
  functors := []
  trace := []

def emit (c : TcpConnection) (effect : Effect) : TcpConnection :=
  { c with trace := effect :: c.trace }

def setState (c : TcpConnection) (state : ConnState) : TcpConnection := { c with state }

def connected (c : TcpConnection) : Bool := c.state = .kConnected

/-- `EventLoop::queueInLoop` on the connection's loop. -/
def queueInLoop (c : TcpConnection) (functor : Functor) : TcpConnection :=
  { c with
    pendingFunctors := c.pendingFunctors ++ [functor]
    trace := .queueInLoop functor :: c.trace }

/-- `functors.swap(pendingFunctors_)`. -/
def swapFunctors (c : TcpConnection) : TcpConnection :=
  { c with pendingFunctors := [], functors := c.pendingFunctors }

/-- The loop of `doPendingFunctors` has come to the functors given. -/
def setBatch (c : TcpConnection) (functors : List Functor) : TcpConnection :=
  { c with functors }

/-- An interest operation of the channel: set the mask, then `update()`. -/
def updateEvents (c : TcpConnection) (events : EventMask) : Except Fault TcpConnection := do
  let (poller, channel) ← c.poller.updateChannel { c.channel with events }
  return { c with poller, channel }

def enableReading (c : TcpConnection) : Except Fault TcpConnection :=
  c.updateEvents (c.channel.events ||| kReadEvent)

def enableWriting (c : TcpConnection) : Except Fault TcpConnection :=
  c.updateEvents (c.channel.events ||| kWriteEvent)

def disableWriting (c : TcpConnection) : Except Fault TcpConnection :=
  c.updateEvents (c.channel.events &&& ~~~ kWriteEvent)

def disableAll (c : TcpConnection) : Except Fault TcpConnection := c.updateEvents kNoneEvent

def enableET (c : TcpConnection) : TcpConnection :=
  { c with channel := c.channel.enableET }

def connectEstablished (c : TcpConnection) : Except Fault TcpConnection := do
  let c ← (c.setState .kConnected).enableET.enableReading
  return c.emit (.connectionCallback c.connected)

/-- Stop watching and tell the application that the connection is down. -/
def disconnect (c : TcpConnection) : Except Fault TcpConnection := do
  let c ← (c.setState .kDisconnected).disableAll
  return c.emit (.connectionCallback c.connected)

def removeChannel (c : TcpConnection) : Except Fault TcpConnection := do
  let (poller, channel) ← c.poller.removeChannel c.channel
  return { c with poller, channel }

def connectDestroyed (c : TcpConnection) : Except Fault TcpConnection := do
  let c ← (if c.state = .kConnected then c.disconnect else pure c)
  c.removeChannel

def handleClose (c : TcpConnection) : Except Fault TcpConnection := do
  let c ← c.disconnect
  return c.emit .closeCallback

/-- `getsockopt` only feeds the log line. -/
def handleError (c : TcpConnection) : Except Fault TcpConnection := c.handleClose

/-- One turn of the loop in `handleRead`; the flag says whether it goes on. -/
def readOnce (c : TcpConnection) (result : ReadResult) : Except Fault (TcpConnection × Bool) := do
  let (inputBuffer, outcome) ← c.inputBuffer.readFd result
  let c := { c with inputBuffer }
  match outcome with
  | .count 0 => c.handleClose.map (·, false)
  | .count _ => return (c.emit .messageCallback, true)
  | .error .EAGAIN => return (c, false)
  | .error _ => c.handleError.map (·, false)

def shutdownInLoop (c : TcpConnection) : TcpConnection :=
  if c.channel.isWriting then c else c.emit .shutdownWrite

/-- The direct path is open: no write interest and nothing buffered. -/
def canWriteDirectly (c : TcpConnection) : Bool :=
  !c.channel.isWriting && c.outputBuffer.readableBytes == 0

def queueWriteComplete (c : TcpConnection) : TcpConnection :=
  if c.writeCompleteCallback then c.queueInLoop .writeComplete else c

/-- A direct write or sendfile that left nothing over is reported. -/
def completeWrite (c : TcpConnection) (remaining : Nat) : TcpConnection :=
  if remaining = 0 then c.queueWriteComplete else c

/-- Errors after which the remaining data is given up. -/
def faultError (errno : Errno) : Bool := errno = .EPIPE ∨ errno = .ECONNRESET

/-- Crossing the high-water mark from below is reported. -/
def queueHighWaterMark (c : TcpConnection) (remaining : Nat) : TcpConnection :=
  let oldLen := c.outputBuffer.readableBytes
  let pending := addSize oldLen remaining
  if c.highWaterMark ≤ pending ∧ oldLen < c.highWaterMark ∧ c.highWaterMarkCallback then
    c.queueInLoop (.highWaterMark pending)
  else c

def appendOutput (c : TcpConnection) (data : List UInt8) : Except Fault TcpConnection := do
  let outputBuffer ← c.outputBuffer.append data
  return { c with outputBuffer }

/-- The tail of `sendInLoop`: check the high-water mark, buffer what remains,
watch for writability. -/
def bufferRemaining (c : TcpConnection) (remaining : List UInt8) :
    Except Fault TcpConnection :=
  if 0 < remaining.length then do
    let c ← (c.queueHighWaterMark remaining.length).appendOutput remaining
    if c.channel.isWriting then .ok c else c.enableWriting
  else .ok c

/-- A connection that is down is only logged; the function goes on. -/
def sendInLoop (c : TcpConnection) (data : ByteString) (result : IoResult) :
    Except Fault TcpConnection :=
  let c := c.emit (.sendInLoop data.bytes)
  if c.canWriteDirectly then
    let wrote := result.accepted data.bytes
    let c := c.emit (.write wrote)
    match result with
    | .count _ =>
        let remaining := data.bytes.drop wrote.length
        (c.completeWrite remaining.length).bufferRemaining remaining
    | .error errno => if faultError errno then .ok c else c.bufferRemaining data.bytes
  else c.bufferRemaining data.bytes

/-- What remains of a file is queued again, behind everything else. -/
def requeueFile (c : TcpConnection) (file : List UInt8) (offset remaining : Nat) :
    TcpConnection :=
  if 0 < remaining then c.queueInLoop (.sendFileInLoop file offset remaining) else c

def sendFileInLoop (c : TcpConnection) (file : List UInt8) (offset count : Nat)
    (result : IoResult) : TcpConnection :=
  if c.state = .kDisconnecting then c
  else if c.canWriteDirectly then
    let sent := result.accepted (fileSegment file offset count)
    let c := c.emit (.sendfile sent)
    match result with
    | .count _ =>
        let remaining := count - sent.length
        (c.completeWrite remaining).requeueFile file (offset + sent.length) remaining
    | .error errno => if faultError errno then c else c.requeueFile file offset count
  else c.requeueFile file offset count

/-- The output buffer has just become empty in `handleWrite`. -/
def outputDrained (c : TcpConnection) : Except Fault TcpConnection := do
  let c ← c.disableWriting
  let c := c.queueWriteComplete
  return if c.state = .kDisconnecting then c.shutdownInLoop else c

/-- The application takes bytes it has received. -/
def retrieveInput (c : TcpConnection) (len : Nat) : TcpConnection :=
  { c with inputBuffer := c.inputBuffer.retrieve len }

/-- What the kernel took leaves the output buffer. -/
def retrieveOutput (c : TcpConnection) (n : Nat) : TcpConnection :=
  { c with outputBuffer := c.outputBuffer.retrieve n }

/-- One turn of the loop in `handleWrite`; the flag says whether it goes on. -/
def writeOnce (c : TcpConnection) (result : IoResult) : Except Fault (TcpConnection × Bool) := do
  let (bytes, outcome) ← c.outputBuffer.writeFd result
  let c := c.emit (.write bytes)
  match outcome with
  | .count 0 => return (c, false)
  | .error _ => return (c, false)
  | .count n =>
      let c := c.retrieveOutput n
      if c.outputBuffer.readableBytes = 0 then c.outputDrained.map (·, true)
      else return (c, true)

/-- The loop of `handleWrite`: the list holds the kernel's answers to the successive
writes, and EAGAIN is the answer once it is used up. -/
def handleWriteLoop (c : TcpConnection) : List IoResult → Except Fault TcpConnection
  | [] => do
      let (c, _) ← c.writeOnce (.error .EAGAIN)
      return c
  | result :: results => do
      let (c, again) ← c.writeOnce result
      if again then handleWriteLoop c results else .ok c

def handleWrite (c : TcpConnection) (results : List IoResult) : Except Fault TcpConnection :=
  if c.channel.isWriting then c.handleWriteLoop results else .ok c

/-- `send` on the loop's own thread. -/
def send (c : TcpConnection) (data : ByteString) (result : IoResult) :
    Except Fault TcpConnection :=
  if c.state = .kConnected then (c.emit (.accept data.bytes)).sendInLoop data result else .ok c

/-- `shutdown` on the loop's own thread. -/
def shutdown (c : TcpConnection) : TcpConnection :=
  if c.state = .kConnected then (c.setState .kDisconnecting).shutdownInLoop else c

/-- Run a functor; the result answers the one system call it can make. The two
user callbacks act on the connection only through calls of their own. -/
def runFunctor (c : TcpConnection) (functor : Functor) (result : IoResult) :
    Except Fault TcpConnection :=
  match functor with
  | .connectEstablished => c.connectEstablished
  | .connectDestroyed => c.connectDestroyed
  | .sendInLoop data => c.sendInLoop data result
  | .sendFileInLoop file offset count => .ok (c.sendFileInLoop file offset count result)
  | .shutdownInLoop => .ok c.shutdownInLoop
  | .writeComplete => .ok c
  | .highWaterMark _ => .ok c

end TcpConnection

end KamaWebserver
