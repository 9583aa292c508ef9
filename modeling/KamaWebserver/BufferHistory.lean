import KamaWebserver.BufferFifo

set_option autoImplicit false

namespace KamaWebserver

open Outcome Transition

/-- The calls a user of `Buffer` can make. -/
inductive BufferOp
  | append (data : ByteString)
  | readFd (result : ReadResult)
  | retrieve (len : UInt64)
  | retrieveAll
  | retrieveAsString (len : UInt64)
  | retrieveAllAsString
  | ensureWritableBytes (len : UInt64)

/-- A buffer, the bytes taken out of it and put into it so far, and the number of
writable bytes the last call promised. -/
structure BufferHistory where
  buf : Buffer
  consumed : List UInt8
  received : List UInt8
  ensured : Nat
  deriving DecidableEq

namespace BufferHistory

/-- A constructed buffer. -/
def start (size : UInt64) : Except Fault BufferHistory := do
  let buf ← Buffer.create size.toNat
  return ⟨buf, [], [], 0⟩

/-- The bytes a call moved into the buffer. -/
def arriving (buf : Buffer) : ReadResult → List UInt8
  | .data incoming => buf.received incoming
  | .error _ => []

def step (h : BufferHistory) : BufferOp → Except Fault BufferHistory
  | .append data => do
      let buf ← h.buf.append data.bytes
      return ⟨buf, h.consumed, h.received ++ data.bytes, 0⟩
  | .readFd result => do
      let (buf, _) ← h.buf.readFd result
      return ⟨buf, h.consumed, h.received ++ arriving h.buf result, 0⟩
  | .retrieve len =>
      .ok ⟨h.buf.retrieve len.toNat, h.consumed ++ h.buf.readable.take len.toNat, h.received, 0⟩
  | .retrieveAll => .ok ⟨h.buf.retrieveAll, h.consumed ++ h.buf.readable, h.received, 0⟩
  | .retrieveAsString len => do
      let (buf, result) ← h.buf.retrieveAsString len.toNat
      return ⟨buf, h.consumed ++ result, h.received, 0⟩
  | .retrieveAllAsString => do
      let (buf, result) ← h.buf.retrieveAllAsString
      return ⟨buf, h.consumed ++ result, h.received, 0⟩
  | .ensureWritableBytes len => do
      let buf ← h.buf.ensureWritableBytes len.toNat
      return ⟨buf, h.consumed, h.received, len.toNat⟩

/-- The indices are ordered, the promised room is there, and no byte is lost,
repeated or moved. -/
structure Faithful (h : BufferHistory) : Prop where
  prepend : cheapPrepend ≤ h.buf.readerIndex
  ordered : h.buf.readerIndex ≤ h.buf.writerIndex
  inside : h.buf.writerIndex ≤ h.buf.buffer.length
  room : h.ensured ≤ h.buf.writableBytes
  stream : h.consumed ++ h.buf.readable = h.received

/-- A string is taken from the readable bytes only, and no room is asked for whose
size computation wraps around. -/
def Fits (h : BufferHistory) : BufferOp → Prop
  | .retrieveAsString len => len.toNat ≤ h.buf.readableBytes
  | .ensureWritableBytes len => h.buf.SpaceOk len.toNat
  | _ => True

/-- The buffer implements the queue: same history, and its readable bytes are the
queue's content. -/
structure Represents (h : BufferHistory) (queue : Fifo UInt8) : Prop where
  valid : h.buf.Valid
  room : h.ensured ≤ h.buf.writableBytes
  consumed : h.consumed = queue.consumed
  content : h.buf.readable = queue.content
  received : h.received = queue.received

/-- What each call does to the queue the buffer stands for. -/
def onFifo (h : BufferHistory) (queue : Fifo UInt8) : BufferOp → Fifo UInt8
  | .append data => queue.push data.bytes
  | .readFd result => queue.push (arriving h.buf result)
  | .retrieve len => queue.pop len.toNat
  | .retrieveAll => queue.pop queue.content.length
  | .retrieveAsString len => queue.pop len.toNat
  | .retrieveAllAsString => queue.pop queue.content.length
  | .ensureWritableBytes _ => queue

variable {h : BufferHistory} {queue : Fifo UInt8}

theorem Represents.faithful (rep : h.Represents queue) : h.Faithful :=
  ⟨rep.valid.prepend, rep.valid.ordered, rep.valid.inside, rep.room, by
    rw [rep.consumed, rep.content, rep.received, queue.balanced]⟩

theorem create_represents (size : UInt64) (fits : size.toNat + cheapPrepend < sizeModulus) :
    Spec Buffer.Throws (fun h => h.Represents Fifo.empty) (start size) := by
  have total : addSize cheapPrepend size.toNat = cheapPrepend + size.toNat :=
    addSize_eq _ _ (by omega)
  unfold start Buffer.create
  split
  · exact rfl
  · rename_i small
    rw [total] at small ⊢
    refine ⟨⟨Nat.le_refl _, Nat.le_refl _, ?_, ?_⟩, Nat.zero_le _, rfl, ?_, rfl⟩
    · simp
    · simp only [List.length_replicate]
      omega
    · exact Block.window_empty _ _

/-- Every call that fits acts on the buffer as it acts on the queue. -/
theorem step_represents (rep : h.Represents queue) (op : BufferOp) (fits : h.Fits op) :
    Spec Buffer.Throws (fun next => next.Represents (h.onFifo queue op)) (h.step op) := by
  have whole : h.buf.readable.take queue.content.length = h.buf.readable := by
    rw [← rep.content, List.take_length]
  cases op with
  | append data =>
      apply (Buffer.append_spec rep.valid data.bytes data.bounded).bind
      rintro buf ⟨valid, bytes⟩
      exact ⟨valid, Nat.zero_le _, rep.consumed, by rw [bytes, rep.content]; rfl,
        by rw [rep.received]; rfl⟩
  | readFd result =>
      apply (Buffer.readFd_spec rep.valid result).bind
      rintro ⟨buf, count⟩ ⟨valid, bytes⟩
      refine ⟨valid, Nat.zero_le _, rep.consumed, ?_, by rw [rep.received]; rfl⟩
      rw [bytes, rep.content]
      cases result <;> rfl
  | retrieve len =>
      obtain ⟨valid, bytes⟩ := rep.valid.retrieve len.toNat
      exact ⟨valid, Nat.zero_le _, by rw [rep.consumed, rep.content]; rfl,
        by rw [bytes, rep.content]; rfl, rep.received⟩
  | retrieveAll =>
      refine ⟨rep.valid.retrieveAll, Nat.zero_le _, ?_, ?_, rep.received⟩
      · simp only [onFifo, Fifo.pop_consumed, rep.consumed, rep.content, List.take_length]
      · simp [onFifo]
  | retrieveAsString len =>
      apply (Buffer.retrieveAsString_spec rep.valid len.toNat fits).bind
      rintro ⟨buf, result⟩ ⟨valid, rest, bytes⟩
      exact ⟨valid, Nat.zero_le _, by
        simp only [show result = _ from bytes, rep.consumed, rep.content]; rfl,
        by rw [rest, rep.content]; rfl, rep.received⟩
  | retrieveAllAsString =>
      have length := rep.valid.readable_length
      apply (Buffer.retrieveAsString_spec rep.valid h.buf.readableBytes (Nat.le_refl _)).bind
      rintro ⟨buf, result⟩ ⟨valid, rest, bytes⟩
      rw [← length, rep.content] at rest bytes
      exact ⟨valid, Nat.zero_le _, by
        simp only [show result = _ from bytes, rep.consumed]; rfl, rest, rep.received⟩
  | ensureWritableBytes len =>
      apply (Buffer.ensureWritableBytes_spec rep.valid len.toNat fits).bind
      rintro buf ⟨valid, bytes, room⟩
      exact ⟨valid, room, rep.consumed, by rw [bytes, rep.content]; rfl, rep.received⟩

/-- A call that does not fit breaks the buffer, or copies outside the vector. -/
theorem step_breaks (rep : h.Represents queue) (op : BufferOp) (wraps : ¬ h.Fits op) :
    Spec (fun fault => fault = .outOfBounds) (fun next => ¬ next.Faithful) (h.step op) := by
  cases op with
  | retrieveAsString len =>
      have length := rep.valid.readable_length
      have past : h.buf.readableBytes < len.toNat := by
        unfold Fits at wraps
        omega
      simp only [step, Buffer.retrieveAsString, copyOut]
      cases taken : Block.read h.buf.buffer h.buf.readerIndex len.toNat with
      | none => exact rfl
      | some result =>
          obtain ⟨inside, bytes⟩ := (Block.read_eq_some_iff _ _ _ _).mp taken
          have resultLength : result.length = len.toNat := by
            rw [← bytes, Block.window_length _ _ _ inside]
            omega
          intro faithful
          have balance := congrArg List.length
            (faithful.stream.trans rep.faithful.stream.symm)
          simp only [List.length_append] at balance
          omega
  | ensureWritableBytes len =>
      obtain ⟨after, returned, broken⟩ :=
        Buffer.ensureWritableBytes_breaks rep.valid len.toNat len.toNat_lt wraps
      simp only [step, returned]
      exact fun faithful => broken ⟨faithful.inside, faithful.room⟩
  | append data => exact absurd trivial wraps
  | readFd result => exact absurd trivial wraps
  | retrieve len => exact absurd trivial wraps
  | retrieveAll => exact absurd trivial wraps
  | retrieveAllAsString => exact absurd trivial wraps

/-- From construction on, every call keeps the buffer a byte queue and copies
inside the vector. -/
def StaysFifo (size : UInt64) (ops : List BufferOp) : Prop :=
  match start size with
  | .ok h => Always step Faithful (fun fault => fault ≠ .outOfBounds) h ops
  | .error fault => fault ≠ .outOfBounds

/-- No size computation wraps around, in the constructor or in any call. -/
def NeverWraps (size : UInt64) (ops : List BufferOp) : Prop :=
  size.toNat + cheapPrepend < sizeModulus ∧
    match start size with
    | .ok h => Guarded step Fits h ops
    | .error _ => True

theorem create_breaks (size : UInt64) (wraps : ¬ size.toNat + cheapPrepend < sizeModulus) :
    ∃ h, start size = .ok h ∧ ¬ h.Faithful := by
  have small := size.toNat_lt
  have wrapped : addSize cheapPrepend size.toNat = cheapPrepend + size.toNat - sizeModulus := by
    rw [addSize, Nat.mod_eq_sub_mod (by omega), Nat.mod_eq_of_lt]
    unfold cheapPrepend sizeModulus
    omega
  have tiny : addSize cheapPrepend size.toNat < cheapPrepend := by
    rw [wrapped]
    unfold sizeModulus at wraps ⊢
    omega
  have allocates : ¬ maxSize < addSize cheapPrepend size.toNat := by
    have bound : cheapPrepend ≤ maxSize := by decide
    omega
  refine ⟨⟨⟨List.replicate (addSize cheapPrepend size.toNat) 0, cheapPrepend, cheapPrepend⟩,
    [], [], 0⟩, ?_, fun faithful => ?_⟩
  · simp only [start, Buffer.create, allocates, ↓reduceIte]
    rfl
  · have inside := faithful.inside
    simp only [List.length_replicate] at inside
    omega

/-- The buffer is a byte queue over a whole run exactly when no size wraps around. -/
theorem staysFifo_iff_neverWraps (size : UInt64) (ops : List BufferOp) :
    StaysFifo size ops ↔ NeverWraps size ops := by
  unfold StaysFifo NeverWraps
  by_cases fits : size.toNat + cheapPrepend < sizeModulus
  · have created := create_represents size fits
    cases built : start size with
    | error fault =>
        have thrown := created.of_error built
        simp [fits, thrown]
    | ok h =>
        have rep := created.of_ok built
        simp only [fits, true_and]
        refine always_iff_guarded (fun h : BufferHistory => ∃ queue, h.Represents queue)
          ?_ ?_ ?_ ?_ ?_ ⟨Fifo.empty, rep⟩ ops
        · rintro state ⟨queue, rep⟩
          exact rep.faithful
        · rintro state op next ⟨queue, rep⟩ fits taken
          exact ⟨_, (step_represents rep op fits).of_ok taken⟩
        · rintro state op fault ⟨queue, rep⟩ fits failed
          rw [(step_represents rep op fits).of_error failed]
          decide
        · rintro state op next ⟨queue, rep⟩ wraps taken
          exact (step_breaks rep op wraps).of_ok taken
        · rintro state op fault ⟨queue, rep⟩ wraps failed
          simpa using (step_breaks rep op wraps).of_error failed
  · obtain ⟨h, built, broken⟩ := create_breaks size fits
    simp only [built, fits, false_and, iff_false]
    exact fun always => broken always.start

/-- `ensureWritableBytes(SIZE_MAX)` on a new buffer returns with the same room. -/
theorem ensureWritableBytes_sizeMax_breaks :
    ¬ StaysFifo 16 [.ensureWritableBytes 18446744073709551615] := by
  let fresh : Buffer := ⟨List.replicate 24 0, 8, 8⟩
  have built : start 16 = .ok ⟨fresh, [], [], 0⟩ := by decide +kernel
  have returned : step ⟨fresh, [], [], 0⟩ (.ensureWritableBytes 18446744073709551615) =
      .ok ⟨fresh, [], [], 18446744073709551615⟩ := by decide +kernel
  intro stays
  simp only [StaysFifo, built, Always, returned] at stays
  exact absurd stays.2.room (by decide +kernel)

end BufferHistory

end KamaWebserver
