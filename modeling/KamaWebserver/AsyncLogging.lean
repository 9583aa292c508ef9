import KamaWebserver.Basic

set_option autoImplicit false

namespace KamaWebserver

def kLargeBufferSize : Nat := 4096 * 1000

/-- The first `size_` bytes of `data_`; `cur_` points behind them. -/
structure FixedBuffer (bufferSize : Nat) where
  contents : List UInt8
  fits : contents.length ≤ bufferSize

namespace FixedBuffer

variable {bufferSize : Nat}

def empty : FixedBuffer bufferSize := ⟨[], Nat.zero_le _⟩

def avail (buffer : FixedBuffer bufferSize) : Nat := bufferSize - buffer.contents.length

/-- What does not leave room for one more byte is dropped. -/
def append (buffer : FixedBuffer bufferSize) (buf : List UInt8) : FixedBuffer bufferSize :=
  if room : buf.length < buffer.avail then
    ⟨buffer.contents ++ buf, by
      unfold avail at room
      rw [List.length_append]
      omega⟩
  else buffer

/-- `reset` forgets the bytes, whatever they were. -/
def reset (_ : FixedBuffer bufferSize) : FixedBuffer bufferSize := empty

@[simp] theorem empty_contents : (empty : FixedBuffer bufferSize).contents = [] := rfl

theorem append_contents (buffer : FixedBuffer bufferSize) (buf : List UInt8)
    (room : buf.length < buffer.avail) :
    (buffer.append buf).contents = buffer.contents ++ buf := by
  rw [append, dif_pos room]

end FixedBuffer

abbrev LargeBuffer := FixedBuffer kLargeBufferSize

/-- A `unique_ptr`, which owns its buffer or is null. -/
abbrev BufferPtr := Option LargeBuffer

def deref : BufferPtr → Except Fault LargeBuffer
  | some buffer => .ok buffer
  | none => .error .nullPointer

/-- Where `threadFunc` is: not started, at the loop condition, before the critical
section, in `wait_for`, about to write the buffer of an index, about to recycle, or
returned. -/
inductive BackendPc
  | idle
  | test
  | lock
  | waiting
  | write (index : Nat)
  | recycle
  | done
  deriving DecidableEq, Repr

/-- The members, the locals of `threadFunc`, and the bytes `output.append` was given.
`appended` is not in the source: it holds the messages in the order of their critical
sections. -/
structure AsyncLogging where
  running : Bool
  currentBuffer : BufferPtr
  nextBuffer : BufferPtr
  buffers : List BufferPtr
  newbuffer1 : BufferPtr
  newbuffer2 : BufferPtr
  buffersToWrite : List BufferPtr
  pc : BackendPc
  output : List UInt8
  appended : List (List UInt8)

/-- A message shorter than a large buffer. -/
structure LogLine where
  bytes : List UInt8
  short : bytes.length < kLargeBufferSize

inductive LogEvent
  | append (logline : LogLine)
  | start
  | stop
  | backend

namespace AsyncLogging

def create : AsyncLogging where
  running := false
  currentBuffer := some .empty
  nextBuffer := some .empty
  buffers := []
  newbuffer1 := none
  newbuffer2 := none
  buffersToWrite := []
  pc := .idle
  output := []
  appended := []

/-- `running_` is set before the thread starts, which first makes its two spare buffers. -/
def start (log : AsyncLogging) : Except Fault AsyncLogging :=
  if log.pc = .idle then
    .ok { log with
      running := true
      newbuffer1 := some .empty
      newbuffer2 := some .empty
      pc := .test }
  else .error .notEnabled

def stop (log : AsyncLogging) : AsyncLogging := { log with running := false }

def append (log : AsyncLogging) (logline : List UInt8) : Except Fault AsyncLogging := do
  let current ← deref log.currentBuffer
  let log := { log with appended := log.appended ++ [logline] }
  if logline.length < current.avail then
    return { log with currentBuffer := some (current.append logline) }
  else
    let log := { log with buffers := log.buffers ++ [log.currentBuffer], currentBuffer := none }
    let log := match log.nextBuffer with
      | some next => { log with currentBuffer := some next, nextBuffer := none }
      | none => { log with currentBuffer := some .empty }
    let current ← deref log.currentBuffer
    return { log with currentBuffer := some (current.append logline) }

/-- The critical section of `threadFunc` after the wait, if there was one. -/
def collect (log : AsyncLogging) : AsyncLogging :=
  let log := { log with
    buffers := log.buffers ++ [log.currentBuffer]
    currentBuffer := log.newbuffer1
    newbuffer1 := none }
  let log := match log.nextBuffer with
    | some _ => log
    | none => { log with nextBuffer := log.newbuffer2, newbuffer2 := none }
  { log with buffers := log.buffersToWrite, buffersToWrite := log.buffers, pc := .write 0 }

/-- One round of the loop over `buffersToWrite`. -/
def writeNext (log : AsyncLogging) (index : Nat) : Except Fault AsyncLogging :=
  match log.buffersToWrite[index]? with
  | some buffer => do
      let buffer ← deref buffer
      return { log with output := log.output ++ buffer.contents, pc := .write (index + 1) }
  | none => .ok { log with pc := .recycle }

/-- A spare buffer that was handed out is replaced by the last one written. -/
def refill (spare : BufferPtr) (written : List BufferPtr) :
    Except Fault (BufferPtr × List BufferPtr) :=
  match spare with
  | some _ => .ok (spare, written)
  | none =>
      match written.getLast? with
      | some back => do
          let buffer ← deref back
          return (some buffer.reset, written.dropLast)
      | none => .error .outOfBounds

/-- `resize(2)` is called on a longer vector only. -/
def recycle (log : AsyncLogging) : Except Fault AsyncLogging := do
  let written := if 2 < log.buffersToWrite.length then log.buffersToWrite.take 2
    else log.buffersToWrite
  let (newbuffer1, written) ← refill log.newbuffer1 written
  let (newbuffer2, _) ← refill log.newbuffer2 written
  return { log with newbuffer1, newbuffer2, buffersToWrite := [], pc := .test }

/-- The next step of `threadFunc`. A wait ends by a notification, by its timeout or for
no reason, so at any time. -/
def backend (log : AsyncLogging) : Except Fault AsyncLogging :=
  match log.pc with
  | .idle => .error .notEnabled
  | .test => .ok { log with pc := if log.running then .lock else .done }
  | .lock => .ok (if log.buffers.isEmpty then { log with pc := .waiting } else log.collect)
  | .waiting => .ok log.collect
  | .write index => log.writeNext index
  | .recycle => log.recycle
  | .done => .error .notEnabled

def step (log : AsyncLogging) : LogEvent → Except Fault AsyncLogging
  | .append logline => log.append logline.bytes
  | .start => log.start
  | .stop => .ok log.stop
  | .backend => log.backend

end AsyncLogging

end KamaWebserver
