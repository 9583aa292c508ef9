import KamaWebserver.SendStream

set_option autoImplicit false

namespace KamaWebserver

open Outcome Trace Transition

namespace EchoServer

def body : String := "Hello Muduo!"

/-- `http_resp` of `onMessage`. -/
def httpResp : String :=
  "HTTP/1.1 200 OK\r\n" ++ ("Content-Length: " ++ toString body.length ++ "\r\n") ++
    "Connection: keep-alive\r\n" ++ "\r\n" ++ body

/-- Its bytes; all of it is ASCII. -/
def response : ByteString where
  bytes := httpResp.toList.map fun char => UInt8.ofNat char.toNat
  bounded := by
    rw [List.length_map]
    decide

example : response.bytes.length = 75 := by decide

end EchoServer

/-- A connection of an `EchoServer`, with what its readv calls have delivered, the strings `msg`
of `onMessage`, and how often that found the connection connected and how often the direct write
of the response then failed for good. -/
structure EchoConnection where
  conn : TcpConnection
  received : List UInt8
  messages : List (List UInt8)
  answered : Nat
  dropped : Nat

/-- What happens to a connection of an `EchoServer`. The list of `handleRead` holds the results of
readv, each with that of the write `onMessage` then makes. -/
inductive EchoEvent
  | handleRead (results : List (ReadResult × IoResult))
  | handleWrite (results : List IoResult)
  | handleClose
  | handleError
  | connectDestroyed

namespace EchoConnection

/-- The response is written directly and the write fails for good. -/
def drops (c : TcpConnection) (result : IoResult) : Bool :=
  c.connected && c.canWriteDirectly && result.givesUp

def onMessage (e : EchoConnection) (result : IoResult) : Except Fault EchoConnection := do
  let (inputBuffer, msg) ← e.conn.inputBuffer.retrieveAllAsString
  let taken := { e.conn with inputBuffer }
  let conn ← taken.send EchoServer.response result
  return { e with
    conn
    messages := e.messages ++ [msg]
    answered := if taken.connected then e.answered + 1 else e.answered
    dropped := if drops taken result then e.dropped + 1 else e.dropped }

/-- What a readv delivers. -/
def delivered (c : TcpConnection) : ReadResult → List UInt8
  | .data incoming => c.inputBuffer.received incoming
  | .error _ => []

def readOnce (e : EchoConnection) (result : ReadResult) : Except Fault (EchoConnection × Bool) := do
  let (conn, again) ← e.conn.readOnce result
  return ({ e with conn, received := e.received ++ delivered e.conn result }, again)

/-- The loop of `handleRead`; EAGAIN is the answer once the list is used up. -/
def handleRead (e : EchoConnection) : List (ReadResult × IoResult) → Except Fault EchoConnection
  | [] => do
      let (e, _) ← e.readOnce (.error .EAGAIN)
      return e
  | (read, write) :: results => do
      let (e, again) ← e.readOnce read
      if again then
        let e ← e.onMessage write
        e.handleRead results
      else return e

def onConn (e : EchoConnection) (result : Except Fault TcpConnection) :
    Except Fault EchoConnection :=
  result.map fun conn => { e with conn }

def step (e : EchoConnection) : EchoEvent → Except Fault EchoConnection
  | .handleRead results => e.handleRead results
  | .handleWrite results => e.onConn (e.conn.handleWrite results)
  | .handleClose => e.onConn e.conn.handleClose
  | .handleError => e.onConn e.conn.handleError
  | .connectDestroyed => e.onConn e.conn.connectDestroyed

/-- A connection of the server just after `connectEstablished`; the server sets no write-complete
callback. -/
def start (self fd : Nat) : EchoConnection :=
  ⟨Session.established ⟨self, fd, 64 * 1024 * 1024, false, false⟩, [], [], 0, 0⟩

end EchoConnection

namespace TcpConnection

variable {c : TcpConnection}

/-- What the application has not read stays. -/
def KeepsInput (c : TcpConnection) (result : Except Fault TcpConnection) : Prop :=
  Spec (fun _ => True) (fun after => after.inputBuffer = c.inputBuffer) result

theorem KeepsInput.congr {other : TcpConnection} {result : Except Fault TcpConnection}
    (kept : other.KeepsInput result) (same : other.inputBuffer = c.inputBuffer) :
    c.KeepsInput result :=
  Spec.mono kept fun _ input => input.trans same

theorem keepsInput_updateEvents (c : TcpConnection) (events : EventMask) :
    c.KeepsInput (c.updateEvents events) := by
  unfold updateEvents
  cases c.poller.updateChannel { c.channel with events } with
  | ok updated => rfl
  | error fault => trivial

@[simp] theorem queueWriteComplete_input (c : TcpConnection) :
    c.queueWriteComplete.inputBuffer = c.inputBuffer := by
  unfold queueWriteComplete
  split <;> rfl

@[simp] theorem completeWrite_input (c : TcpConnection) (remaining : Nat) :
    (c.completeWrite remaining).inputBuffer = c.inputBuffer := by
  unfold completeWrite
  split <;> simp

@[simp] theorem queueHighWaterMark_input (c : TcpConnection) (remaining : Nat) :
    (c.queueHighWaterMark remaining).inputBuffer = c.inputBuffer := by
  unfold queueHighWaterMark
  dsimp only
  split <;> rfl

@[simp] theorem shutdownInLoop_input (c : TcpConnection) :
    c.shutdownInLoop.inputBuffer = c.inputBuffer := by
  unfold shutdownInLoop
  split <;> rfl

theorem keepsInput_appendOutput (c : TcpConnection) (data : List UInt8) :
    c.KeepsInput (c.appendOutput data) := by
  unfold appendOutput
  cases c.outputBuffer.append data with
  | ok outputBuffer => rfl
  | error fault => trivial

theorem keepsInput_bufferRemaining (c : TcpConnection) (remaining : List UInt8) :
    c.KeepsInput (c.bufferRemaining remaining) := by
  unfold bufferRemaining
  split
  · apply Spec.bind (keepsInput_appendOutput _ remaining)
    intro filled same
    rw [queueHighWaterMark_input] at same
    split
    · exact same
    · exact (keepsInput_updateEvents filled _).congr same
  · rfl

theorem keepsInput_sendInLoop (c : TcpConnection) (data : ByteString) (result : IoResult) :
    c.KeepsInput (c.sendInLoop data result) := by
  unfold sendInLoop
  dsimp only
  split
  · cases result with
    | count n => exact (keepsInput_bufferRemaining _ _).congr (completeWrite_input _ _)
    | error errno =>
        dsimp only
        split
        · rfl
        · exact (keepsInput_bufferRemaining _ _).congr rfl
  · exact (keepsInput_bufferRemaining _ _).congr rfl

theorem keepsInput_send (c : TcpConnection) (data : ByteString) (result : IoResult) :
    c.KeepsInput (c.send data result) := by
  unfold send
  split
  · exact (keepsInput_sendInLoop _ data result).congr rfl
  · rfl

theorem keepsInput_outputDrained (c : TcpConnection) : c.KeepsInput c.outputDrained := by
  unfold outputDrained
  apply Spec.bind (keepsInput_updateEvents c _)
  intro quiet same
  dsimp only
  split
  · exact (shutdownInLoop_input _).trans ((queueWriteComplete_input _).trans same)
  · exact (queueWriteComplete_input _).trans same

theorem keepsInput_writeOnce (c : TcpConnection) (result : IoResult) :
    Spec (fun _ => True) (fun after => after.1.inputBuffer = c.inputBuffer)
      (c.writeOnce result) := by
  have wrote : Spec (fun _ => True) (fun _ => True) (c.outputBuffer.writeFd result) := by
    cases c.outputBuffer.writeFd result with
    | ok wrote => trivial
    | error fault => trivial
  unfold writeOnce
  apply wrote.bind
  intro ⟨bytes, outcome⟩ _
  dsimp only
  split
  · rfl
  · rfl
  · split
    · exact (keepsInput_outputDrained _).map fun _ same => same
    · rfl

theorem keepsInput_handleWriteLoop (c : TcpConnection) (results : List IoResult) :
    c.KeepsInput (c.handleWriteLoop results) := by
  induction results generalizing c with
  | nil => exact (keepsInput_writeOnce c _).bind fun _ same => same
  | cons result results ih =>
      apply (keepsInput_writeOnce c result).bind
      intro wrote same
      dsimp only
      split
      · exact (ih wrote.1).congr same
      · exact same

theorem keepsInput_handleWrite (c : TcpConnection) (results : List IoResult) :
    c.KeepsInput (c.handleWrite results) := by
  unfold handleWrite
  split
  · exact keepsInput_handleWriteLoop c results
  · rfl

theorem keepsInput_disconnect (c : TcpConnection) : c.KeepsInput c.disconnect := by
  apply ((keepsInput_updateEvents (c.setState .kDisconnected) _).congr rfl).bind
  exact fun _ same => same

theorem keepsInput_handleClose (c : TcpConnection) : c.KeepsInput c.handleClose :=
  (keepsInput_disconnect c).bind fun _ same => same

theorem keepsInput_connectDestroyed (c : TcpConnection) : c.KeepsInput c.connectDestroyed := by
  have removes (c : TcpConnection) : c.KeepsInput c.removeChannel := by
    unfold removeChannel
    cases c.poller.removeChannel c.channel with
    | ok removed => rfl
    | error fault => trivial
  unfold connectDestroyed
  split
  · exact (keepsInput_disconnect c).bind fun down same => (removes down).congr same
  · exact removes c

end TcpConnection

end KamaWebserver
