import KamaWebserver.Basic
import KamaWebserver.Library.Block

set_option autoImplicit false

namespace KamaWebserver

/-- `CheapPrepend`, the space kept in front of the readable bytes. -/
def cheapPrepend : Nat := 8

/-- `InitialSize`, the default constructor argument. -/
def initialSize : Nat := 1024

/-- `sizeof(extrabuf)` in `readFd`. -/
def extraBufSize : Nat := 65536

structure Buffer where
  buffer : List UInt8
  readerIndex : Nat
  writerIndex : Nat
  deriving DecidableEq, Repr

/-- `vector::resize`, which throws beyond `max_size()` and leaves the vector alone. -/
def resizeBytes (buffer : List UInt8) (size : Nat) : Except Fault (List UInt8) :=
  if maxSize < size then .error .lengthError else .ok (Block.resize 0 buffer size)

/-- Copy `data` into the vector at `start`. -/
def copyIn (buffer : List UInt8) (start : Nat) (data : List UInt8) : Except Fault (List UInt8) :=
  match Block.write buffer start data with
  | some after => .ok after
  | none => .error .outOfBounds

/-- Copy `count` bytes out of the vector from `start`. -/
def copyOut (buffer : List UInt8) (start count : Nat) : Except Fault (List UInt8) :=
  match Block.read buffer start count with
  | some data => .ok data
  | none => .error .outOfBounds

namespace Buffer

/-- The constructor; the size it asks the vector for is computed in `size_t`. -/
def create (size : Nat) : Except Fault Buffer :=
  if maxSize < addSize cheapPrepend size then .error .lengthError
  else .ok ⟨List.replicate (addSize cheapPrepend size) 0, cheapPrepend, cheapPrepend⟩

def readableBytes (b : Buffer) : Nat := subSize b.writerIndex b.readerIndex

def writableBytes (b : Buffer) : Nat := subSize b.buffer.length b.writerIndex

def prependableBytes (b : Buffer) : Nat := b.readerIndex

def retrieveAll (b : Buffer) : Buffer :=
  { b with readerIndex := cheapPrepend, writerIndex := cheapPrepend }

def retrieve (b : Buffer) (len : Nat) : Buffer :=
  if len < b.readableBytes then { b with readerIndex := addSize b.readerIndex len }
  else b.retrieveAll

/-- The string is built from `peek()`, whatever lies there, before `retrieve`. -/
def retrieveAsString (b : Buffer) (len : Nat) : Except Fault (Buffer × List UInt8) := do
  let result ← copyOut b.buffer b.readerIndex len
  return (b.retrieve len, result)

def retrieveAllAsString (b : Buffer) : Except Fault (Buffer × List UInt8) :=
  b.retrieveAsString b.readableBytes

/-- The else branch of `makeSpace`: slide the readable bytes down to `CheapPrepend`. -/
def slide (b : Buffer) : Except Fault Buffer := do
  let readable := b.readableBytes
  let data ← copyOut b.buffer b.readerIndex readable
  let buffer ← copyIn b.buffer cheapPrepend data
  return ⟨buffer, cheapPrepend, addSize cheapPrepend readable⟩

def makeSpace (b : Buffer) (len : Nat) : Except Fault Buffer :=
  if addSize b.writableBytes b.prependableBytes < addSize len cheapPrepend then do
    let buffer ← resizeBytes b.buffer (addSize b.writerIndex len)
    return { b with buffer }
  else b.slide

def ensureWritableBytes (b : Buffer) (len : Nat) : Except Fault Buffer :=
  if b.writableBytes < len then b.makeSpace len else .ok b

def append (b : Buffer) (data : List UInt8) : Except Fault Buffer := do
  let b ← b.ensureWritableBytes data.length
  let buffer ← copyIn b.buffer b.writerIndex data
  return { b with buffer, writerIndex := addSize b.writerIndex data.length }

/-- What readv delivers of `incoming`: the second iovec is offered only when the
tail of the vector is smaller than `extrabuf`. -/
def received (b : Buffer) (incoming : List UInt8) : List UInt8 :=
  incoming.take
    (if b.writableBytes < extraBufSize then b.writableBytes + extraBufSize else b.writableBytes)

/-- readv fills the tail of the vector first, then `extrabuf`, which is appended. -/
def readFd (b : Buffer) (result : ReadResult) : Except Fault (Buffer × IoResult) :=
  match result with
  | .error errno => .ok (b, .error errno)
  | .data incoming => do
    let writable := b.writableBytes
    let bytes := b.received incoming
    let buffer ← copyIn b.buffer b.writerIndex (bytes.take writable)
    if bytes.length ≤ writable then
      return ({ b with buffer, writerIndex := addSize b.writerIndex bytes.length },
        .count bytes.length)
    else
      let filled ← append { b with buffer, writerIndex := b.buffer.length } (bytes.drop writable)
      return (filled, .count bytes.length)

/-- The bytes the kernel accepts and the value `::write` returns. -/
def writeFd (b : Buffer) (result : IoResult) : Except Fault (List UInt8 × IoResult) := do
  let offered ← copyOut b.buffer b.readerIndex b.readableBytes
  match result with
  | .error errno => return ([], .error errno)
  | .count n => return (offered.take n, .count (offered.take n).length)

/-- The readable region, as bytes. -/
def readable (b : Buffer) : List UInt8 := Block.window b.buffer b.readerIndex b.writerIndex

/-- `CheapPrepend <= readerIndex_ <= writerIndex_ <= buffer_.size()`, for a vector
that exists. -/
structure Valid (b : Buffer) : Prop where
  prepend : cheapPrepend ≤ b.readerIndex
  ordered : b.readerIndex ≤ b.writerIndex
  inside : b.writerIndex ≤ b.buffer.length
  bounded : b.buffer.length ≤ maxSize

/-- No size computed while making room for `len` bytes wraps around: either the
free bytes already suffice or the enlarged vector's size is below 2^64. -/
def SpaceOk (b : Buffer) (len : Nat) : Prop :=
  len + cheapPrepend < sizeModulus ∧
    (len + cheapPrepend ≤ b.writableBytes + b.prependableBytes ∨
      b.writerIndex + len < sizeModulus)

instance (b : Buffer) (len : Nat) : Decidable (b.SpaceOk len) := by
  unfold SpaceOk
  infer_instance

section Valid

variable {b : Buffer}

theorem Valid.readableBytes_eq (valid : b.Valid) :
    b.readableBytes = b.writerIndex - b.readerIndex := by
  have inside := valid.inside
  have bounded := valid.bounded
  exact subSize_eq _ _ valid.ordered (by unfold maxSize at bounded; unfold sizeModulus; omega)

theorem Valid.writableBytes_eq (valid : b.Valid) :
    b.writableBytes = b.buffer.length - b.writerIndex := by
  have bounded := valid.bounded
  exact subSize_eq _ _ valid.inside (by unfold maxSize at bounded; unfold sizeModulus; omega)

theorem Valid.readable_length (valid : b.Valid) : b.readable.length = b.readableBytes := by
  rw [valid.readableBytes_eq, readable, Block.window_length _ _ _ valid.inside]

theorem Valid.space_eq (valid : b.Valid) :
    addSize b.writableBytes b.prependableBytes = b.writableBytes + b.prependableBytes := by
  have ordered := valid.ordered
  have inside := valid.inside
  have bounded := valid.bounded
  apply addSize_eq
  rw [valid.writableBytes_eq]
  unfold prependableBytes
  unfold maxSize at bounded
  unfold sizeModulus
  omega

theorem Valid.retrieveAll (valid : b.Valid) : b.retrieveAll.Valid := by
  have prepend := valid.prepend
  have ordered := valid.ordered
  have inside := valid.inside
  exact ⟨Nat.le_refl _, Nat.le_refl _, by simp only [Buffer.retrieveAll]; omega, valid.bounded⟩

@[simp] theorem readable_retrieveAll (b : Buffer) : b.retrieveAll.readable = [] :=
  Block.window_empty _ _

/-- Retrieving drops the first `len` readable bytes, all of them when fewer are left. -/
theorem Valid.retrieve (valid : b.Valid) (len : Nat) :
    (b.retrieve len).Valid ∧ (b.retrieve len).readable = b.readable.drop len := by
  have count := valid.readableBytes_eq
  have length := valid.readable_length
  unfold Buffer.retrieve
  split
  · rename_i part
    have ordered := valid.ordered
    have inside := valid.inside
    have bounded := valid.bounded
    have moved : addSize b.readerIndex len = b.readerIndex + len := by
      apply addSize_eq
      unfold maxSize at bounded
      unfold sizeModulus
      omega
    refine ⟨⟨?_, ?_, inside, bounded⟩, ?_⟩
    · simp only [moved]
      exact Nat.le_trans valid.prepend (Nat.le_add_right _ _)
    · simp only [moved]
      omega
    · simp only [Buffer.readable, moved, Block.window_drop]
  · refine ⟨valid.retrieveAll, ?_⟩
    rw [readable_retrieveAll, List.drop_eq_nil_of_le (by omega)]

/-- The bytes `peek()` shows are the readable ones, and reading them is in bounds. -/
theorem Valid.copyOut_readable (valid : b.Valid) (len : Nat) (part : len ≤ b.readableBytes) :
    copyOut b.buffer b.readerIndex len = .ok (b.readable.take len) := by
  have ordered := valid.ordered
  have inside := valid.inside
  rw [valid.readableBytes_eq] at part
  have taken : Block.read b.buffer b.readerIndex len = some (b.readable.take len) := by
    rw [Block.read_eq_some_iff, Buffer.readable, Block.window_take _ _ _ _ (by omega)]
    exact ⟨by omega, rfl⟩
  simp only [copyOut, taken]

end Valid

end Buffer

end KamaWebserver
