import KamaWebserver.LogContents

set_option autoImplicit false

namespace KamaWebserver

open Outcome Decimal

/-- The end of a complete record: ` - <file>:<line>` and a newline. -/
def frame (file : List UInt8) (line : Int) : List UInt8 :=
  (ascii " - " ++ file) ++ (ascii ":" ++ (decimal line ++ ascii "\n"))

/-- There is room for the separator, the file name, the colon and any number. -/
def FrameFits (contents file : List UInt8) : Prop :=
  contents.length + 3 + file.length + 1 + kMaxNumberSize ≤ kSmallBufferSize

/-- The message already ends in what makes the record end as it should, although `finish`
drops the file name alone, or the colon, the number and the newline, these and the separator,
or everything. -/
def FrameSupplied (contents file : List UInt8) (line : Int) : Prop :=
  (contents.length + 3 + 1 + kMaxNumberSize ≤ kSmallBufferSize ∧
    kSmallBufferSize ≤ contents.length + 3 + file.length ∧
    ascii " - " ++ file <:+ contents ++ ascii " - ") ∨
  (contents.length + 3 + file.length + 1 = kSmallBufferSize ∧
    frame file line <:+ contents ++ ascii " - " ++ file) ∨
  (kSmallBufferSize ≤ contents.length + 3 ∧ contents.length + file.length + 1 = kSmallBufferSize ∧
    frame file line <:+ contents ++ file) ∨
  (contents.length + 1 = kSmallBufferSize ∧ frame file line <:+ contents)

/-- The contents with the colon, the line number and the newline, as far as they are kept. -/
def lineKept (contents : List UInt8) (line : Int) : List UInt8 :=
  kept (keptNumber (kept contents (ascii ":")) line) (ascii "\n")

/-- The contents after `finish`. -/
def finished (contents file : List UInt8) (line : Int) : List UInt8 :=
  lineKept (kept (kept contents (ascii " - ")) file) line

/-- The last byte decides first. -/
theorem not_suffix_concat {first second : List UInt8} {last other : UInt8} (differ : last ≠ other) :
    ¬first ++ [last] <:+ second ++ [other] := by
  intro suffix
  have length : [last].length = [other].length := rfl
  obtain ⟨-, same⟩ := (List.suffix_append_inj_of_length_eq length).mp suffix
  exact differ (List.cons.inj same).1

/-- A number ends in a digit. -/
theorem decimal_last (num : Int) : ∃ front d, d < 10 ∧ decimal num = front ++ [digit d] := by
  have last (n : Nat) : ∃ front d, d < 10 ∧ digits n = front ++ [digit d] := by
    rw [digits_eq]
    split
    · rename_i small
      exact ⟨[], n, small, rfl⟩
    · exact ⟨_, n % 10, Nat.mod_lt n (by decide), rfl⟩
  obtain ⟨front, d, small, ends⟩ := last num.natAbs
  by_cases negative : num < 0
  · exact ⟨ascii "-" ++ front, d, small, by
      rw [decimal_of_neg negative, ends, List.append_assoc]⟩
  · exact ⟨front, d, small, by rw [decimal_of_nonneg (by omega), ends]⟩

theorem frame_newline (file : List UInt8) (line : Int) :
    ∃ front, frame file line = front ++ [0x0a] :=
  ⟨(ascii " - " ++ file) ++ (ascii ":" ++ decimal line), by simp [frame, ascii]⟩

/-- In front of the newline stands a digit. -/
theorem frame_digit (file : List UInt8) (line : Int) :
    ∃ front d, d < 10 ∧ frame file line = front ++ [digit d] ++ [0x0a] := by
  obtain ⟨front, d, small, ends⟩ := decimal_last line
  exact ⟨(ascii " - " ++ file) ++ (ascii ":" ++ front), d, small, by simp [frame, ends, ascii]⟩

variable {contents file : List UInt8} {line : IntegerType.int.Value}

theorem lineKept_of_room (room : contents.length + 1 + kMaxNumberSize ≤ kSmallBufferSize) :
    lineKept contents line.val =
      contents ++ (ascii ":" ++ (decimal line.val ++ ascii "\n")) := by
  have digits := IntegerType.int.decimal_length line
  have colon : (ascii ":").length = 1 := rfl
  have newline : (ascii "\n").length = 1 := rfl
  have enough : kMaxNumberSize = 32 := rfl
  have grown : (contents ++ ascii ":").length = contents.length + 1 := by
    rw [List.length_append, colon]
  have numbered : (contents ++ ascii ":" ++ decimal line.val).length =
      contents.length + 1 + (decimal line.val).length := by
    rw [List.length_append, grown]
  rw [lineKept, kept_of_room contents _ (by omega), keptNumber_of_room _ _ (by omega),
    kept_of_room _ _ (by omega), List.append_assoc, List.append_assoc]

theorem lineKept_of_full (full : contents.length + 1 = kSmallBufferSize) :
    lineKept contents line.val = contents := by
  have colon : (ascii ":").length = 1 := rfl
  have newline : (ascii "\n").length = 1 := rfl
  have enough : kMaxNumberSize = 32 := rfl
  rw [lineKept, kept_of_full contents _ (by omega), keptNumber_of_full _ _ (by omega),
    kept_of_full _ _ (by omega)]

/-- Without the number the colon is in its place, or the newline is missing. -/
theorem lineKept_cut (cut : kSmallBufferSize < contents.length + 1 + kMaxNumberSize)
    (room : contents.length + 1 < kSmallBufferSize) :
    ¬frame file line.val <:+ lineKept contents line.val := by
  have colon : (ascii ":").length = 1 := rfl
  have newline : (ascii "\n").length = 1 := rfl
  have grown : (contents ++ ascii ":").length = contents.length + 1 := by
    rw [List.length_append, colon]
  rw [lineKept, kept_of_room contents _ (by omega), keptNumber_of_full _ _ (by omega)]
  by_cases last : contents.length + 2 < kSmallBufferSize
  · rw [kept_of_room _ _ (by omega)]
    obtain ⟨front, d, small, ends⟩ := frame_digit file line.val
    have differ : digit d ≠ 0x3a := by
      rw [ne_eq, ← UInt8.toNat_inj, digit_toNat small, show (0x3a : UInt8).toNat = 58 from rfl]
      omega
    intro suffix
    rw [ends] at suffix
    obtain ⟨inner, -⟩ := (List.suffix_append_inj_of_length_eq rfl).mp suffix
    exact not_suffix_concat differ inner
  · rw [kept_of_full _ _ (by omega)]
    obtain ⟨front, ends⟩ := frame_newline file line.val
    rw [ends]
    exact not_suffix_concat (by decide)

/-- What is in front of the colon decides. -/
theorem lineKept_framed_iff (short : contents.length < kSmallBufferSize) :
    frame file line.val <:+ lineKept contents line.val ↔
      (contents.length + 1 + kMaxNumberSize ≤ kSmallBufferSize ∧
        ascii " - " ++ file <:+ contents) ∨
      (contents.length + 1 = kSmallBufferSize ∧ frame file line.val <:+ contents) := by
  have enough : kMaxNumberSize = 32 := rfl
  by_cases room : contents.length + 1 + kMaxNumberSize ≤ kSmallBufferSize
  · have full : contents.length + 1 ≠ kSmallBufferSize := by omega
    rw [lineKept_of_room room, frame, List.suffix_append_inj_of_length_eq rfl]
    simp only [room, full, and_true, true_and, false_and, or_false]
  · simp only [room, false_and, false_or]
    by_cases full : contents.length + 1 = kSmallBufferSize
    · rw [lineKept_of_full full]
      simp only [full, true_and]
    · simp only [full, false_and, iff_false]
      exact lineKept_cut (by omega) (by omega)

/-- The end of the record survives exactly when there is room for it, or when the message
brings what is missing. -/
theorem finished_framed_iff (short : contents.length < kSmallBufferSize) :
    frame file line.val <:+ finished contents file line.val ↔
      FrameFits contents file ∨ FrameSupplied contents file line.val := by
  have separator : (ascii " - ").length = 3 := rfl
  have enough : kMaxNumberSize = 32 := rfl
  have separated : (contents ++ ascii " - ").length = contents.length + 3 := by
    rw [List.length_append, separator]
  have remaining := kept_length_lt (kept contents (ascii " - ")) file
    (kept_length_lt contents (ascii " - ") short)
  rw [finished, lineKept_framed_iff remaining]
  unfold FrameFits FrameSupplied
  by_cases first : contents.length + 3 < kSmallBufferSize
  · rw [kept_of_room contents (ascii " - ") (by omega)]
    by_cases second : contents.length + 3 + file.length < kSmallBufferSize
    · have inside : ascii " - " ++ file <:+ contents ++ ascii " - " ++ file := by
        rw [List.append_assoc]
        exact List.suffix_append _ _
      rw [kept_of_room _ file (by omega), List.length_append, separated]
      grind
    · -- Nothing but a space is last when the separator is.
      have spaced : ¬frame file line.val <:+ contents ++ ascii " - " := by
        obtain ⟨front, ends⟩ := frame_newline file line.val
        rw [ends, show ascii " - " = ascii " -" ++ [0x20] from rfl, ← List.append_assoc]
        exact not_suffix_concat (by decide)
      rw [kept_of_full _ file (by omega), separated]
      grind
  · rw [kept_of_full contents (ascii " - ") (by omega)]
    by_cases second : contents.length + file.length < kSmallBufferSize
    · -- An empty name fits behind a full message.
      have nameless : contents.length + 1 = kSmallBufferSize → contents ++ file = contents := by
        intro full
        rw [List.eq_nil_of_length_eq_zero (by omega : file.length = 0), List.append_nil]
      rw [kept_of_room _ file (by omega), List.length_append]
      grind
    · rw [kept_of_full _ file (by omega)]
      grind

/-- What `finish` leaves of its suffix is what `finished` says. -/
theorem finish_contents (impl : Impl) :
    ∃ after, impl.finish = .ok after ∧ after.level = impl.level ∧
      after.stream.contents =
        finished impl.stream.contents impl.basename.data impl.line.val := by
  obtain ⟨stream, inserted, grown⟩ := impl.stream.insertAll_contents impl.suffixOperands
  refine ⟨{ impl with stream }, ?_, rfl, grown.trans ?_⟩
  · simp only [Impl.finish, inserted, bind, Except.bind]
    rfl
  · have whole : impl.basename.template.bytes = impl.basename.data := by
      simp [GeneralTemplate.bytes, SourceFile.template]
    have nonneg : ¬impl.basename.template.len < 0 := by
      simp [SourceFile.template]
    simp only [Impl.suffixOperands, List.foldl_cons, List.foldl_nil, keep, nonneg, ↓reduceIte,
      whole]
    rfl

/-- Behind a message that leaves one byte nothing is kept. -/
theorem finished_of_full (full : contents.length + 1 = kSmallBufferSize) (named : file ≠ []) :
    finished contents file line.val = contents := by
  have separator : (ascii " - ").length = 3 := rfl
  have positive : 0 < file.length := List.length_pos_iff.mpr named
  rw [finished, kept_of_full contents _ (by omega), kept_of_full contents _ (by omega),
    lineKept_of_full full]

/-- The one record of a statement is what `finish` leaves. -/
theorem logStatement_record (env : LogEnvironment) (now : Int)
    (memory : Vector UInt8 kSmallBufferSize) (filename : FileName)
    (line : IntegerType.int.Value) (level : LogLevel) (operands : List Operand)
    {logger : Logger} (logged : logMessage env now memory filename line level operands = .ok logger)
    (ranked : logger.impl.level = level) :
    logStatement env now memory filename line level operands =
      .ok (.output (finished logger.impl.stream.contents logger.impl.basename.data
        logger.impl.line.val) :: if level = .FATAL then [.flush, .abort] else []) := by
  obtain ⟨after, ended, same, contents⟩ := finish_contents logger.impl
  simp only [logStatement, logged, Logger.destroy, ended, bind, Except.bind, same, ranked, contents]
  split <;> rfl

/-- Whatever a statement logs, its one record ends with the file, the line and the newline
exactly when the message leaves room for them or brings what is dropped. -/
theorem logStatement_framed_iff (env : LogEnvironment) (now : Int)
    (memory : Vector UInt8 kSmallBufferSize) (filename : FileName)
    (line : IntegerType.int.Value) (level : LogLevel) (operands : List Operand) :
    ∃ logger msg, logMessage env now memory filename line level operands = .ok logger ∧
      logStatement env now memory filename line level operands =
        .ok (.output msg :: if level = .FATAL then [.flush, .abort] else []) ∧
      (frame (SourceFile.construct filename).data line.val <:+ msg ↔
        FrameFits logger.impl.stream.contents (SourceFile.construct filename).data ∨
        FrameSupplied logger.impl.stream.contents (SourceFile.construct filename).data
          line.val) := by
  obtain ⟨logger, logged, contents, ranked, rfl, named⟩ :=
    logMessage_contents env now memory filename line level operands
  have short := logMessage_length_lt env now level operands
  rw [← contents] at short
  refine ⟨logger, _, logged, logStatement_record _ _ _ _ _ _ _ logged ranked, ?_⟩
  rw [← named]
  exact finished_framed_iff short

/-- A message of 4065 bytes is the last that is kept, and nothing fits behind it. -/
theorem logStatement_longMessage_unframed :
    ∃ msg, logStatement ⟨localtime 0, fun _ => []⟩ 0 (Vector.replicate kSmallBufferSize 0)
        ⟨ascii "src/main.cc", by decide⟩ ⟨30, by decide⟩ .INFO
        [.string (List.replicate 4065 0x78)] = .ok [.output msg] ∧
      ¬frame (ascii "main.cc") 30 <:+ msg ∧ ¬ascii "\n" <:+ msg := by
  obtain ⟨logger, logged, contents, ranked, numbered, named⟩ :=
    logMessage_contents ⟨localtime 0, fun _ => []⟩ 0 (Vector.replicate kSmallBufferSize 0)
      ⟨ascii "src/main.cc", by decide⟩ ⟨30, by decide⟩ .INFO [.string (List.replicate 4065 0x78)]
  have base : logger.impl.basename.data = ascii "main.cc" := by
    rw [named]
    decide
  have begun : (timePrefix (localtime 0) 0 ++ getLevelName .INFO).length = 30 := by
    rw [List.length_append, timePrefix_length, getLevelName_length]
  have length : (List.replicate 4065 (0x78 : UInt8)).length = 4065 := List.length_replicate
  rw [List.foldl_cons, List.foldl_nil, keep, kept_of_room _ _ (by
    rw [begun, length]
    decide)] at contents
  have full : logger.impl.stream.contents.length + 1 = kSmallBufferSize := by
    rw [contents, List.length_append, begun, length]
    rfl
  have last : logger.impl.stream.contents =
      timePrefix (localtime 0) 0 ++ getLevelName .INFO ++ List.replicate 4064 0x78 ++ [0x78] := by
    rw [contents, List.replicate_succ', ← List.append_assoc]
  refine ⟨_, logStatement_record _ _ _ _ _ _ _ logged ranked, ?_, ?_⟩
  · rw [base, finished_of_full full (by decide), last]
    obtain ⟨front, ends⟩ := frame_newline (ascii "main.cc") 30
    rw [ends]
    exact not_suffix_concat (by decide)
  · rw [base, finished_of_full full (by decide), last]
    rw [show ascii "\n" = [] ++ [0x0a] from rfl]
    exact not_suffix_concat (by decide)

end KamaWebserver
