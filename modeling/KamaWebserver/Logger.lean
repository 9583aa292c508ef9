import KamaWebserver.Library.Calendar
import KamaWebserver.Library.FixedWidth
import KamaWebserver.LogStream

set_option autoImplicit false

namespace KamaWebserver

open Outcome Decimal

/-- The bytes in front of the first NUL. -/
def cString (str : List UInt8) : List UInt8 := str.takeWhile (· ≠ 0)

/-- The text `snprintf` leaves in front of the NUL in a buffer of `size` bytes. -/
def snprintf (size : Nat) (text : List UInt8) : List UInt8 := text.take (size - 1)

structure GeneralTemplate where
  data : List UInt8
  len : Int
  inside : len ≤ data.length

/-- The `len_` bytes behind `data_`. -/
def GeneralTemplate.bytes (g : GeneralTemplate) : List UInt8 := g.data.take g.len.toNat

/-- The operands of `operator<<`; a `float` goes in as the `double` it is cast to, and a
`double` is given as the text of `%.12g`. -/
inductive Operand
  | bool (express : Bool)
  | integer (type : IntegerType) (number : type.Value)
  | double (number : List UInt8)
  | char (str : UInt8)
  | cString (str : List UInt8)
  | string (str : List UInt8)
  | general (g : GeneralTemplate)

abbrev LogStream := BufferMemory kSmallBufferSize

namespace LogStream

/-- A new stream over whatever its memory holds. -/
def construct (memory : Vector UInt8 kSmallBufferSize) : LogStream :=
  ⟨memory.toList, 0, by simp, Nat.zero_le _⟩

/-- One `operator<<`. A negative length is as a `size_t` more than any buffer has room for. -/
def insert (stream : LogStream) : Operand → Except Fault LogStream
  | .bool express => stream.append (ascii (if express then "true" else "false"))
  | .integer _ number => formatInteger stream number.val
  | .double number => stream.append (cString (snprintf 32 number))
  | .char str => stream.append [str]
  | .cString str => stream.append (KamaWebserver.cString str)
  | .string str => stream.append str
  | .general g => if g.len < 0 then .ok stream else stream.append g.bytes

/-- The operands of a chain, from the left. -/
def insertAll (stream : LogStream) (operands : List Operand) : Except Fault LogStream :=
  operands.foldlM insert stream

end LogStream

inductive LogLevel
  | TRACE
  | DEBUG
  | INFO
  | WARN
  | ERROR
  | FATAL
  deriving DecidableEq, Repr

def getLevelName : LogLevel → List UInt8
  | .TRACE => ascii "TRACE "
  | .DEBUG => ascii "DEBUG "
  | .INFO => ascii "INFO  "
  | .WARN => ascii "WARN  "
  | .ERROR => ascii "ERROR "
  | .FATAL => ascii "FATAL "

theorem getLevelName_length (level : LogLevel) : (getLevelName level).length = 6 := by
  cases level <;> rfl

/-- A file name as `__FILE__` gives it; its length is an `int`. -/
structure FileName where
  bytes : List UInt8
  short : bytes.length < 256

structure SourceFile where
  data : List UInt8

/-- `strrchr` looks for the last slash. -/
def SourceFile.construct (filename : FileName) : SourceFile :=
  ⟨((cString filename.bytes).reverse.takeWhile (· ≠ 0x2f)).reverse⟩

def SourceFile.template (file : SourceFile) : GeneralTemplate :=
  ⟨file.data, file.data.length, Int.le_refl _⟩

/-- The members of `struct tm` the logger reads. -/
@[ext]
structure Tm where
  year : Int
  mon : Int
  mday : Int
  hour : Int
  min : Int
  sec : Int
  deriving DecidableEq, Repr

/-- The day of the Gregorian calendar that 1 January 1970 is. -/
def epochDay : Int := 719162

/-- `localtime` where local time is always `offset` seconds ahead of UTC. -/
def localtime (offset seconds : Int) : Tm :=
  let date := Calendar.dateOf (epochDay + (seconds + offset) / 86400)
  let second := (seconds + offset) % 86400
  ⟨date.year - 1900, date.month, date.day, second / 3600, second % 3600 / 60, second % 60⟩

/-- What the logger asks of the C library. -/
structure LogEnvironment where
  localtime : Int → Tm
  strerror : Int → List UInt8

def kMicroSecondsPerSecond : Int := 1000 * 1000

/-- `%4d/%02d/%02d %02d:%02d:%02d`. -/
def timeText (tm : Tm) : List UInt8 :=
  spacePadded 4 (tm.year + 1900) ++ (ascii "/" ++ (zeroPadded 2 (tm.mon + 1) ++ (ascii "/" ++
    (zeroPadded 2 tm.mday ++ (ascii " " ++ (zeroPadded 2 tm.hour ++ (ascii ":" ++
      (zeroPadded 2 tm.min ++ (ascii ":" ++ zeroPadded 2 tm.sec)))))))))

/-- `%06d `. -/
def microsecondText (microseconds : Int) : List UInt8 := zeroPadded 6 microseconds ++ ascii " "

theorem timeText_length (tm : Tm) : 17 ≤ (snprintf 64 (timeText tm)).length := by
  have year := spacePadded_length_ge 4 (tm.year + 1900)
  have month := zeroPadded_length_ge 2 (tm.mon + 1)
  have day := zeroPadded_length_ge 2 tm.mday
  have hour := zeroPadded_length_ge 2 tm.hour
  have minute := zeroPadded_length_ge 2 tm.min
  have slash : (ascii "/").length = 1 := rfl
  have colon : (ascii ":").length = 1 := rfl
  have space : (ascii " ").length = 1 := rfl
  simp only [snprintf, timeText, List.length_take, List.length_append, slash, colon, space]
  omega

theorem microsecondText_length (microseconds : Int) :
    7 ≤ (snprintf 32 (microsecondText microseconds)).length := by
  have digits := zeroPadded_length_ge 6 microseconds
  have space : (ascii " ").length = 1 := rfl
  simp only [snprintf, microsecondText, List.length_take, List.length_append, space]
  omega

/-- The first 17 bytes of `t_timer`. -/
def timerTemplate (tm : Tm) : GeneralTemplate :=
  ⟨snprintf 64 (timeText tm), 17, Int.ofNat_le.mpr (timeText_length tm)⟩

/-- The first 7 bytes of `buf`. -/
def microsecondTemplate (microseconds : Int) : GeneralTemplate :=
  ⟨snprintf 32 (microsecondText microseconds), 7,
    Int.ofNat_le.mpr (microsecondText_length microseconds)⟩

/-- `formatTime` at the reading `now` of the clock, in microseconds. -/
def formatTime (localtime : Int → Tm) (now : Int) (stream : LogStream) :
    Except Fault LogStream :=
  let seconds := now.tdiv kMicroSecondsPerSecond
  let microseconds := now.tmod kMicroSecondsPerSecond
  stream.insertAll [.general (timerTemplate (localtime seconds)),
    .general (microsecondTemplate microseconds)]

/-- The members of `Logger::Impl`. -/
structure Impl where
  stream : LogStream
  level : LogLevel
  line : IntegerType.int.Value
  basename : SourceFile

namespace Impl

def construct (env : LogEnvironment) (now : Int) (memory : Vector UInt8 kSmallBufferSize)
    (level : LogLevel) (savedErrno : IntegerType.int.Value) (filename : FileName)
    (line : IntegerType.int.Value) : Except Fault Impl := do
  let stream ← formatTime env.localtime now (LogStream.construct memory)
  let stream ← stream.insert (.general ⟨getLevelName level, 6, by
    rw [getLevelName_length]; rfl⟩)
  let stream ←
    (if savedErrno.val ≠ 0 then
      stream.insertAll [.cString (env.strerror savedErrno.val), .cString (ascii " (errno="),
        .integer .int savedErrno, .cString (ascii ") ")]
    else return stream)
  return ⟨stream, level, line, SourceFile.construct filename⟩

/-- The operands `finish` puts behind the message. -/
def suffixOperands (impl : Impl) : List Operand :=
  [.cString (ascii " - "), .general impl.basename.template, .char 0x3a, .integer .int impl.line,
    .char 0x0a]

def finish (impl : Impl) : Except Fault Impl := do
  let stream ← impl.stream.insertAll impl.suffixOperands
  return { impl with stream }

end Impl

/-- What the destructor does: `g_output`, `g_flush`, `abort`. -/
inductive LogEffect
  | output (msg : List UInt8)
  | flush
  | abort
  deriving DecidableEq, Repr

structure Logger where
  impl : Impl

namespace Logger

/-- No statement passes an errno. -/
def construct (env : LogEnvironment) (now : Int) (memory : Vector UInt8 kSmallBufferSize)
    (filename : FileName) (line : IntegerType.int.Value) (level : LogLevel) :
    Except Fault Logger := do
  let impl ← Impl.construct env now memory level ⟨0, by decide⟩ filename line
  return ⟨impl⟩

/-- The operands given to `stream()`. -/
def insertAll (logger : Logger) (operands : List Operand) : Except Fault Logger := do
  let stream ← logger.impl.stream.insertAll operands
  return ⟨{ logger.impl with stream }⟩

def destroy (logger : Logger) : Except Fault (List LogEffect) := do
  let impl ← logger.impl.finish
  let output := LogEffect.output impl.stream.contents
  if impl.level = .FATAL then return [output, .flush, .abort]
  else return [output]

end Logger

/-- A log statement up to the end of its operands. -/
def logMessage (env : LogEnvironment) (now : Int) (memory : Vector UInt8 kSmallBufferSize)
    (filename : FileName) (line : IntegerType.int.Value) (level : LogLevel)
    (operands : List Operand) : Except Fault Logger := do
  let logger ← Logger.construct env now memory filename line level
  logger.insertAll operands

/-- A whole log statement, with the destructor of its logger. -/
def logStatement (env : LogEnvironment) (now : Int) (memory : Vector UInt8 kSmallBufferSize)
    (filename : FileName) (line : IntegerType.int.Value) (level : LogLevel)
    (operands : List Operand) : Except Fault (List LogEffect) := do
  let logger ← logMessage env now memory filename line level operands
  logger.destroy

end KamaWebserver
