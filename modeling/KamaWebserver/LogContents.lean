import KamaWebserver.IntegerFormat
import KamaWebserver.Logger

set_option autoImplicit false

namespace KamaWebserver

open Outcome Decimal

/-- The contents after `append` of a piece. -/
def kept (contents piece : List UInt8) : List UInt8 :=
  if contents.length + piece.length < kSmallBufferSize then contents ++ piece else contents

/-- The contents after `formatInteger`. -/
def keptNumber (contents : List UInt8) (num : Int) : List UInt8 :=
  if contents.length + kMaxNumberSize ≤ kSmallBufferSize then contents ++ decimal num
  else contents

/-- The contents after one `operator<<`. -/
def keep (contents : List UInt8) : Operand → List UInt8
  | .bool express => kept contents (ascii (if express then "true" else "false"))
  | .integer _ number => keptNumber contents number.val
  | .double number => kept contents (cString (snprintf 32 number))
  | .char str => kept contents [str]
  | .cString str => kept contents (cString str)
  | .string str => kept contents str
  | .general g => if g.len < 0 then contents else kept contents g.bytes

theorem kept_of_room (contents piece : List UInt8)
    (room : contents.length + piece.length < kSmallBufferSize) :
    kept contents piece = contents ++ piece := if_pos room

theorem kept_of_full (contents piece : List UInt8)
    (full : kSmallBufferSize ≤ contents.length + piece.length) : kept contents piece = contents :=
  if_neg (Nat.not_lt.mpr full)

theorem keptNumber_of_room (contents : List UInt8) (num : Int)
    (room : contents.length + kMaxNumberSize ≤ kSmallBufferSize) :
    keptNumber contents num = contents ++ decimal num := if_pos room

theorem keptNumber_of_full (contents : List UInt8) (num : Int)
    (full : kSmallBufferSize < contents.length + kMaxNumberSize) :
    keptNumber contents num = contents := if_neg (Nat.not_le.mpr full)

theorem kept_length_lt (contents piece : List UInt8) (short : contents.length < kSmallBufferSize) :
    (kept contents piece).length < kSmallBufferSize := by
  unfold kept
  split
  · rwa [List.length_append]
  · exact short

/-- No operand fills the last byte. -/
theorem keep_length_lt (contents : List UInt8) (operand : Operand)
    (short : contents.length < kSmallBufferSize) :
    (keep contents operand).length < kSmallBufferSize := by
  cases operand with
  | integer type number =>
      have digits := type.decimal_length number
      simp only [keep, keptNumber]
      split
      · rename_i room
        unfold kMaxNumberSize at room
        rw [List.length_append]
        omega
      · exact short
  | general g =>
      simp only [keep]
      split
      · exact short
      · exact kept_length_lt _ _ short
  | _ => exact kept_length_lt _ _ short

theorem append_contents (stream : LogStream) (buf : List UInt8) :
    ∃ after, stream.append buf = .ok after ∧ after.contents = kept stream.contents buf := by
  obtain ⟨after, appended, same⟩ := stream.append_view buf
  refine ⟨after, appended, (congrArg FixedBuffer.contents same).trans ?_⟩
  have avail : stream.view.avail = kSmallBufferSize - stream.contents.length := rfl
  by_cases room : stream.contents.length + buf.length < kSmallBufferSize
  · rw [kept_of_room _ _ room]
    exact stream.view.append_contents buf (by omega)
  · rw [kept_of_full _ _ (Nat.not_lt.mp room), FixedBuffer.append, dif_neg (by omega)]
    rfl

theorem formatInteger_contents (stream : LogStream) (type : IntegerType) (num : type.Value) :
    ∃ after, formatInteger stream num.val = .ok after ∧
      after.contents = keptNumber stream.contents num.val := by
  have digits := type.decimal_length num
  have room : kMaxNumberSize ≤ stream.avail ↔
      stream.contents.length + kMaxNumberSize ≤ kSmallBufferSize := by
    have fits := stream.fits
    simp only [BufferMemory.avail, BufferMemory.contents_length]
    omega
  unfold keptNumber
  split
  · rename_i enough
    obtain ⟨after, formatted, -, grown⟩ := formatInteger_ok stream num.val (room.mpr enough)
      (by unfold kMaxNumberSize; omega)
    exact ⟨after, formatted, grown⟩
  · rename_i short
    refine ⟨stream, ?_, rfl⟩
    rw [formatInteger, if_neg (mt room.mp short)]

namespace LogStream

/-- No operand leaves the buffer. -/
theorem insert_contents (stream : LogStream) (operand : Operand) :
    ∃ after, stream.insert operand = .ok after ∧
      after.contents = keep stream.contents operand := by
  cases operand with
  | integer type number => exact formatInteger_contents stream type number
  | general g =>
      simp only [insert, keep]
      split
      · exact ⟨stream, rfl, rfl⟩
      · exact append_contents stream _
  | _ => exact append_contents stream _

theorem insertAll_contents (stream : LogStream) (operands : List Operand) :
    ∃ after, stream.insertAll operands = .ok after ∧
      after.contents = operands.foldl keep stream.contents := by
  induction operands generalizing stream with
  | nil => exact ⟨stream, rfl, rfl⟩
  | cons operand rest ih =>
      obtain ⟨middle, inserted, first⟩ := stream.insert_contents operand
      obtain ⟨after, followed, last⟩ := ih middle
      refine ⟨after, ?_, ?_⟩
      · simp only [insertAll, List.foldlM_cons, inserted]
        exact followed
      · rw [last, first, List.foldl_cons]

end LogStream

theorem foldl_keep_length_lt (operands : List Operand) (contents : List UInt8)
    (short : contents.length < kSmallBufferSize) :
    (operands.foldl keep contents).length < kSmallBufferSize := by
  induction operands generalizing contents with
  | nil => exact short
  | cons operand rest ih => exact ih _ (keep_length_lt contents operand short)

theorem bytes_length {g : GeneralTemplate} {n : Nat} (len : g.len = n) : g.bytes.length = n := by
  have inside := g.inside
  rw [GeneralTemplate.bytes, len, Int.toNat_natCast, List.length_take_of_le (by omega)]

/-- A piece of known length, as long as there is room. -/
theorem keep_general {contents : List UInt8} {g : GeneralTemplate} {n : Nat} (len : g.len = n)
    (room : contents.length + n < kSmallBufferSize) :
    keep contents (.general g) = contents ++ g.bytes := by
  rw [keep, if_neg (by omega), kept_of_room _ _ (by rwa [bytes_length len])]

/-- The 24 bytes a record begins with. -/
def timePrefix (localtime : Int → Tm) (now : Int) : List UInt8 :=
  (timerTemplate (localtime (now.tdiv kMicroSecondsPerSecond))).bytes ++
    (microsecondTemplate (now.tmod kMicroSecondsPerSecond)).bytes

@[simp] theorem timePrefix_length (localtime : Int → Tm) (now : Int) :
    (timePrefix localtime now).length = 24 := by
  rw [timePrefix, List.length_append, bytes_length (n := 17) rfl, bytes_length (n := 7) rfl]

@[simp] theorem construct_contents (memory : Vector UInt8 kSmallBufferSize) :
    (LogStream.construct memory).contents = [] := List.take_zero

theorem formatTime_contents (localtime : Int → Tm) (now : Int)
    (memory : Vector UInt8 kSmallBufferSize) :
    ∃ after, formatTime localtime now (LogStream.construct memory) = .ok after ∧
      after.contents = timePrefix localtime now := by
  obtain ⟨after, formatted, grown⟩ := (LogStream.construct memory).insertAll_contents
    [.general (timerTemplate (localtime (now.tdiv kMicroSecondsPerSecond))),
      .general (microsecondTemplate (now.tmod kMicroSecondsPerSecond))]
  refine ⟨after, formatted, grown.trans ?_⟩
  have timer : keep [] (.general (timerTemplate (localtime (now.tdiv kMicroSecondsPerSecond)))) =
      [] ++ (timerTemplate (localtime (now.tdiv kMicroSecondsPerSecond))).bytes :=
    keep_general (n := 17) rfl (by decide)
  rw [construct_contents, List.foldl_cons, List.foldl_cons, List.foldl_nil, timer,
    List.nil_append, keep_general (n := 7) rfl ?_]
  · rfl
  · rw [bytes_length (n := 17) rfl]
    decide

/-- What a logger has written before the operands of its statement. -/
theorem logger_construct (env : LogEnvironment) (now : Int)
    (memory : Vector UInt8 kSmallBufferSize) (filename : FileName)
    (line : IntegerType.int.Value) (level : LogLevel) :
    ∃ logger, Logger.construct env now memory filename line level = .ok logger ∧
      logger.impl.stream.contents = timePrefix env.localtime now ++ getLevelName level ∧
      logger.impl.level = level ∧ logger.impl.line = line ∧
      logger.impl.basename = SourceFile.construct filename := by
  obtain ⟨timed, formatted, prefixed⟩ := formatTime_contents env.localtime now memory
  have name := getLevelName_length level
  obtain ⟨labelled, inserted, grown⟩ := timed.insert_contents
    (.general ⟨getLevelName level, 6, by rw [name]; rfl⟩)
  refine ⟨⟨labelled, level, line, SourceFile.construct filename⟩, ?_, ?_, rfl, rfl, rfl⟩
  · simp only [Logger.construct, Impl.construct, formatted, inserted, bind, Except.bind]
    rfl
  · rw [grown, prefixed, keep_general (n := 6) rfl (by rw [timePrefix_length]; decide)]
    exact congrArg _ (List.take_of_length_le (Nat.le_of_eq name))

/-- What a logger has written when its destructor begins. -/
theorem logMessage_contents (env : LogEnvironment) (now : Int)
    (memory : Vector UInt8 kSmallBufferSize) (filename : FileName)
    (line : IntegerType.int.Value) (level : LogLevel) (operands : List Operand) :
    ∃ logger, logMessage env now memory filename line level operands = .ok logger ∧
      logger.impl.stream.contents =
        operands.foldl keep (timePrefix env.localtime now ++ getLevelName level) ∧
      logger.impl.level = level ∧ logger.impl.line = line ∧
      logger.impl.basename = SourceFile.construct filename := by
  obtain ⟨logger, constructed, contents, ranked, numbered, named⟩ :=
    logger_construct env now memory filename line level
  obtain ⟨stream, inserted, grown⟩ := logger.impl.stream.insertAll_contents operands
  refine ⟨⟨{ logger.impl with stream }⟩, ?_, by rw [grown, contents], ranked, numbered, named⟩
  simp only [logMessage, constructed, Logger.insertAll, inserted, bind, Except.bind]
  rfl

theorem logMessage_length_lt (env : LogEnvironment) (now : Int) (level : LogLevel)
    (operands : List Operand) :
    (operands.foldl keep (timePrefix env.localtime now ++ getLevelName level)).length <
      kSmallBufferSize := by
  apply foldl_keep_length_lt
  rw [List.length_append, timePrefix_length, getLevelName_length]
  decide

end KamaWebserver
