import KamaWebserver.Buffer
import KamaWebserver.Library.Fifo
import KamaWebserver.Library.Outcome
import KamaWebserver.Library.Transition

set_option autoImplicit false

namespace KamaWebserver

open Outcome

namespace Buffer

/-- The only fault of a buffer operation in good order is vector's length_error. -/
abbrev Throws (fault : Fault) : Prop := fault = .lengthError

variable {b : Buffer}

theorem resizeBytes_spec (buffer : List UInt8) (size : Nat) :
    Spec Throws (fun after => size ≤ maxSize ∧ after = Block.resize 0 buffer size)
      (resizeBytes buffer size) := by
  unfold resizeBytes
  split
  · exact rfl
  · exact ⟨by omega, rfl⟩

/-- Sliding keeps the readable bytes and turns every free byte into a writable one. -/
theorem slide_ok (valid : b.Valid) :
    ∃ after, b.slide = .ok after ∧ after.Valid ∧ after.readable = b.readable ∧
      after.writableBytes + cheapPrepend = b.writableBytes + b.prependableBytes := by
  have prepend := valid.prepend
  have ordered := valid.ordered
  have inside := valid.inside
  have bounded := valid.bounded
  have length := valid.readable_length
  have count := valid.readableBytes_eq
  have whole : b.readable.take b.readableBytes = b.readable :=
    List.take_of_length_le (Nat.le_of_eq length)
  have fits : cheapPrepend + b.readable.length ≤ b.buffer.length := by omega
  have target : addSize cheapPrepend b.readableBytes = cheapPrepend + b.readable.length := by
    rw [addSize_eq, length]
    unfold maxSize at bounded
    unfold sizeModulus
    omega
  obtain ⟨after, stored⟩ := Block.write_of_fits b.buffer b.readable cheapPrepend fits
  have size := Block.write_length stored
  have moved : Valid ⟨after, cheapPrepend, cheapPrepend + b.readable.length⟩ :=
    ⟨Nat.le_refl _, Nat.le_add_right _ _, by simpa only [size] using fits,
      by simpa only [size] using bounded⟩
  refine ⟨⟨after, cheapPrepend, cheapPrepend + b.readable.length⟩, ?_, moved, ?_, ?_⟩
  · simp only [slide, valid.copyOut_readable b.readableBytes (Nat.le_refl _), whole, target]
    simp only [Bind.bind, Except.bind, copyIn, stored, Pure.pure, Except.pure]
  · exact Block.write_window_self stored
  · rw [moved.writableBytes_eq, valid.writableBytes_eq]
    simp only [size, prependableBytes]
    omega

/-- Enlarging the vector keeps the readable bytes. -/
theorem grow_spec (valid : b.Valid) (len : Nat) (fits : b.writerIndex + len < sizeModulus) :
    Spec Throws (fun after => after.Valid ∧ after.readable = b.readable ∧
        len ≤ after.writableBytes)
      (do
        let buffer ← resizeBytes b.buffer (addSize b.writerIndex len)
        return { b with buffer }) := by
  rw [addSize_eq _ _ fits]
  apply (resizeBytes_spec b.buffer (b.writerIndex + len)).bind
  rintro buffer ⟨small, rfl⟩
  have size := Block.resize_length (0 : UInt8) b.buffer (b.writerIndex + len)
  have grown : Valid { b with buffer := Block.resize 0 b.buffer (b.writerIndex + len) } := by
    refine ⟨valid.prepend, valid.ordered, ?_, ?_⟩
    · simp only [size]
      omega
    · simpa only [size] using small
  refine ⟨grown, ?_, ?_⟩
  · exact Block.resize_window _ _ _ _ _ (Nat.le_add_right _ _) valid.inside
  · rw [grown.writableBytes_eq]
    simp only [size]
    omega

/-- When no size wraps around, the call makes room and keeps the readable bytes. -/
theorem ensureWritableBytes_spec (valid : b.Valid) (len : Nat) (space : b.SpaceOk len) :
    Spec Throws (fun after => after.Valid ∧ after.readable = b.readable ∧
        len ≤ after.writableBytes) (b.ensureWritableBytes len) := by
  unfold ensureWritableBytes
  split
  · rename_i short
    unfold makeSpace
    rw [valid.space_eq, addSize_eq len cheapPrepend space.1]
    split
    · exact grow_spec valid len (by have := space.2; omega)
    · obtain ⟨after, slid, valid', kept, room⟩ := slide_ok valid
      rw [slid]
      exact ⟨valid', kept, by omega⟩
  · exact ⟨valid, rfl, by omega⟩

theorem spaceOk_of_le_maxSize (valid : b.Valid) (len : Nat) (small : len ≤ maxSize) :
    b.SpaceOk len := by
  have inside := valid.inside
  have bounded := valid.bounded
  unfold maxSize at small bounded
  refine ⟨?_, Or.inr ?_⟩
  · unfold cheapPrepend sizeModulus
    omega
  · unfold sizeModulus
    omega

/-- Copying behind the readable bytes and advancing the writer index appends. -/
theorem copyIn_spec (valid : b.Valid) (data : List UInt8) (room : data.length ≤ b.writableBytes) :
    Spec Throws (fun buffer =>
        Valid { b with buffer, writerIndex := addSize b.writerIndex data.length } ∧
        buffer.length = b.buffer.length ∧
        readable { b with buffer, writerIndex := addSize b.writerIndex data.length } =
          b.readable ++ data)
      (copyIn b.buffer b.writerIndex data) := by
  have ordered := valid.ordered
  have inside := valid.inside
  have bounded := valid.bounded
  rw [valid.writableBytes_eq] at room
  have fits : b.writerIndex + data.length ≤ b.buffer.length := by omega
  have moved : addSize b.writerIndex data.length = b.writerIndex + data.length := by
    apply addSize_eq
    unfold maxSize at bounded
    unfold sizeModulus
    omega
  obtain ⟨after, stored⟩ := Block.write_of_fits b.buffer data b.writerIndex fits
  have size := Block.write_length stored
  simp only [copyIn, stored, spec_ok, moved]
  refine ⟨⟨valid.prepend, ?_, ?_, ?_⟩, size, ?_⟩
  · simp only
    omega
  · simpa only [size] using fits
  · simpa only [size] using bounded
  · exact Block.write_window_extend stored b.readerIndex ordered

/-- Appending an object that exists in memory adds its bytes behind the readable ones. -/
theorem append_spec (valid : b.Valid) (data : List UInt8) (small : data.length ≤ maxSize) :
    Spec Throws (fun after => after.Valid ∧ after.readable = b.readable ++ data)
      (b.append data) := by
  unfold append
  apply (ensureWritableBytes_spec valid data.length (spaceOk_of_le_maxSize valid _ small)).bind
  rintro roomy ⟨valid', kept, room⟩
  apply (copyIn_spec valid' data room).bind
  rintro buffer ⟨appended, -, bytes⟩
  exact ⟨appended, by rw [bytes, kept]⟩

/-- One read adds exactly the bytes readv delivered, whichever iovec took them. -/
theorem readFd_spec (valid : b.Valid) (result : ReadResult) :
    Spec Throws (fun after => after.1.Valid ∧
        after.1.readable = b.readable ++
          (match result with
          | .data incoming => b.received incoming
          | .error _ => []))
      (b.readFd result) := by
  cases result with
  | error errno => exact ⟨valid, by simp⟩
  | data incoming =>
      simp only [readFd]
      have inside := valid.inside
      have bounded := valid.bounded
      have room := valid.writableBytes_eq
      apply (copyIn_spec valid ((b.received incoming).take b.writableBytes)
        (List.length_take_le _ _)).bind
      rintro buffer ⟨filled, size, bytes⟩
      split
      · rename_i fits
        rw [List.take_of_length_le fits] at filled bytes
        exact ⟨filled, bytes⟩
      · rename_i spills
        have full : ((b.received incoming).take b.writableBytes).length = b.writableBytes :=
          List.length_take_of_le (by omega)
        have ends : addSize b.writerIndex b.writableBytes = b.buffer.length := by
          rw [addSize_eq, room]
          · omega
          · unfold maxSize at bounded
            unfold sizeModulus
            omega
        rw [full, ends] at filled bytes
        have extra : ((b.received incoming).drop b.writableBytes).length ≤ maxSize := by
          simp only [List.length_drop, received, List.length_take]
          unfold extraBufSize maxSize
          split <;> omega
        apply (append_spec filled _ extra).bind
        rintro after ⟨appended, content⟩
        refine ⟨appended, ?_⟩
        rw [content, bytes, List.append_assoc, List.take_append_drop]

/-- The value of `readFd` is the number of bytes readv delivered. -/
theorem readFd_count {incoming : List UInt8} {after : Buffer} {outcome : IoResult}
    (read : b.readFd (.data incoming) = .ok (after, outcome)) :
    outcome = .count (b.received incoming).length := by
  simp only [readFd] at read
  obtain ⟨buffer, -, rest⟩ := (bind_ok_iff _ _ _).mp read
  split at rest
  · cases rest
    rfl
  · obtain ⟨filled, -, returned⟩ := (bind_ok_iff _ _ _).mp rest
    cases returned
    rfl

/-- End of stream always returns 0. -/
theorem readFd_eof (valid : b.Valid) (incoming : List UInt8) (ended : b.received incoming = []) :
    ∃ after, b.readFd (.data incoming) = .ok (after, .count 0) ∧ after.Valid := by
  have inside := valid.inside
  obtain ⟨buffer, stored⟩ := Block.write_of_fits b.buffer [] b.writerIndex (by simpa using inside)
  have returned : b.readFd (.data incoming) =
      .ok ({ b with buffer, writerIndex := addSize b.writerIndex 0 }, .count 0) := by
    simp only [readFd, ended, List.take_nil, copyIn, stored]
    rfl
  exact ⟨_, returned, ((readFd_spec valid (.data incoming)).of_ok returned).1⟩

/-- A string of at most the readable length holds the first readable bytes. -/
theorem retrieveAsString_spec (valid : b.Valid) (len : Nat) (part : len ≤ b.readableBytes) :
    Spec Throws (fun after => after.1.Valid ∧ after.1.readable = b.readable.drop len ∧
        after.2 = b.readable.take len)
      (b.retrieveAsString len) := by
  obtain ⟨kept, rest⟩ := valid.retrieve len
  simp only [retrieveAsString, valid.copyOut_readable len part]
  exact ⟨kept, rest, rfl⟩

/-- writeFd hands a prefix of the readable bytes to the kernel and returns its length. -/
theorem writeFd_eq (valid : b.Valid) (result : IoResult) :
    b.writeFd result = .ok (match result with
      | .error errno => ([], .error errno)
      | .count n => (b.readable.take n, .count (b.readable.take n).length)) := by
  have whole : b.readable.take b.readableBytes = b.readable :=
    List.take_of_length_le (Nat.le_of_eq valid.readable_length)
  simp only [writeFd, valid.copyOut_readable b.readableBytes (Nat.le_refl _), whole]
  cases result <;> rfl

/-- A request whose sizes wrap around returns normally with too little room, or
leaves the writer index outside the vector. -/
theorem ensureWritableBytes_breaks (valid : b.Valid) (len : Nat) (small : len < sizeModulus)
    (wraps : ¬ b.SpaceOk len) :
    ∃ after, b.ensureWritableBytes len = .ok after ∧
      ¬ (after.writerIndex ≤ after.buffer.length ∧ len ≤ after.writableBytes) := by
  have prepend := valid.prepend
  have ordered := valid.ordered
  have inside := valid.inside
  have bounded := valid.bounded
  have room := valid.writableBytes_eq
  have tight : b.writableBytes < len := by
    by_contra enough
    apply wraps
    unfold maxSize at bounded
    unfold cheapPrepend at prepend
    refine ⟨by unfold cheapPrepend sizeModulus; omega, Or.inl ?_⟩
    unfold prependableBytes cheapPrepend
    omega
  simp only [ensureWritableBytes, tight, ↓reduceIte, makeSpace, valid.space_eq]
  unfold maxSize at bounded
  by_cases huge : sizeModulus ≤ len + cheapPrepend
  · have wrapped : addSize len cheapPrepend = len + cheapPrepend - sizeModulus := by
      rw [addSize, Nat.mod_eq_sub_mod huge, Nat.mod_eq_of_lt]
      unfold cheapPrepend
      unfold sizeModulus at small ⊢
      omega
    have slides : ¬ b.writableBytes + b.prependableBytes < addSize len cheapPrepend := by
      rw [wrapped]
      unfold prependableBytes
      omega
    obtain ⟨after, slid, -, -, after_room⟩ := slide_ok valid
    refine ⟨after, by simp only [slides, ↓reduceIte, slid], fun good => ?_⟩
    unfold prependableBytes at after_room
    unfold sizeModulus at huge
    omega
  · have exactSum : addSize len cheapPrepend = len + cheapPrepend := addSize_eq _ _ (by omega)
    have grows : b.writableBytes + b.prependableBytes < len + cheapPrepend := by
      by_contra enough
      exact wraps ⟨by omega, Or.inl (by omega)⟩
    have passes : sizeModulus ≤ b.writerIndex + len := by
      by_contra below
      exact wraps ⟨by omega, Or.inr (by omega)⟩
    have wrapped : addSize b.writerIndex len = b.writerIndex + len - sizeModulus := by
      rw [addSize, Nat.mod_eq_sub_mod passes, Nat.mod_eq_of_lt]
      unfold sizeModulus at small ⊢
      omega
    have allocates : ¬ maxSize < b.writerIndex + len - sizeModulus := by
      unfold maxSize
      omega
    refine ⟨{ b with buffer := Block.resize 0 b.buffer (b.writerIndex + len - sizeModulus) },
      ?_, fun good => ?_⟩
    · simp only [exactSum, grows, ↓reduceIte, wrapped, resizeBytes, allocates]
      rfl
    · have shrunk := good.1
      simp only [Block.resize_length] at shrunk
      omega

end Buffer

end KamaWebserver
