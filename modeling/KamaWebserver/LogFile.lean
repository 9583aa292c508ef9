import KamaWebserver.Logger

set_option autoImplicit false

namespace KamaWebserver

open Outcome Decimal

/-- How many bytes one `fwrite_unlocked` takes, and whether `ferror` is set after it. -/
structure FwriteResult where
  count : Nat
  error : Bool
  deriving DecidableEq, Repr

/-- `contents` are the bytes the stream `file_` was given. -/
structure FileUtil where
  name : List UInt8
  contents : List UInt8
  writtenBytes : Int
  deriving DecidableEq, Repr

namespace FileUtil

def construct (fileName : List UInt8) : FileUtil := ⟨fileName, [], 0⟩

/-- The number of bytes taken, which never exceeds what was offered. -/
def write (file : FileUtil) (data : List UInt8) (result : FwriteResult) : FileUtil × Nat :=
  ({ file with contents := file.contents ++ data.take result.count },
    min result.count data.length)

/-- The loop of `append`; it has not returned when it runs out of results. -/
def appendLoop (data : List UInt8) : (results : List FwriteResult) → (writen : Nat) → FileUtil →
    Except Fault (FileUtil × Nat)
  | [], writen, file => if writen ≠ data.length then .error .notEnabled else .ok (file, writen)
  | result :: results, writen, file =>
      if writen ≠ data.length then
        let remain := data.length - writen
        let (file, n) := file.write (data.drop writen) result
        if n ≠ remain ∧ result.error then .ok (file, writen)
        else appendLoop data results (writen + n) file
      else .ok (file, writen)

def append (file : FileUtil) (data : List UInt8) (results : List FwriteResult) :
    Except Fault FileUtil := do
  let (file, writen) ← appendLoop data results 0 file
  return { file with writtenBytes := file.writtenBytes + writen }

end FileUtil

/-- With all bytes written the loop ends. -/
theorem FileUtil.appendLoop_end (data : List UInt8) (results : List FwriteResult)
    (file : FileUtil) : appendLoop data results data.length file = .ok (file, data.length) := by
  cases results <;> simp [appendLoop]

/-- The name stays whatever the loop writes. -/
theorem FileUtil.appendLoop_name {data : List UInt8} {results : List FwriteResult}
    {writen last : Nat} {file after : FileUtil}
    (returned : appendLoop data results writen file = .ok (after, last)) :
    after.name = file.name := by
  induction results generalizing writen file with
  | nil =>
      rw [appendLoop] at returned
      split at returned
      · cases returned
      · cases returned
        rfl
  | cons result results ih =>
      rw [appendLoop] at returned
      split at returned
      · simp only at returned
        split at returned
        · cases returned
          rfl
        · exact (ih returned).trans rfl
      · cases returned
        rfl

theorem FileUtil.append_name {data : List UInt8} {results : List FwriteResult}
    {file after : FileUtil} (returned : file.append data results = .ok after) :
    after.name = file.name := by
  obtain ⟨⟨written, last⟩, looped, result⟩ := (bind_ok_iff _ _ _).mp returned
  have kept := appendLoop_name looped
  cases result
  exact kept

/-- One call of `LogFile::append`: what `fwrite_unlocked` does in it, the reading `now` of the
clock, and the one `rollFile` takes after it. -/
structure AppendCall where
  data : List UInt8
  results : List FwriteResult
  now : Int
  later : Int
  deriving DecidableEq, Repr

/-- What `file_` points to. The reading it was opened at and the calls that wrote to it are not
in the source. -/
structure RolledFile where
  file : FileUtil
  opened : Int
  calls : List AppendCall
  deriving DecidableEq, Repr

def kRollPerSeconds : Int := 60 * 60 * 24

/-- The value an `int` takes. -/
def wrapInt (n : Int) : Int := n.bmod (2 ^ 32)

/-- `closed` holds the files the log has left, which are not in the source. -/
structure LogFile where
  basename : List UInt8
  rollsize : Int
  flushInterval : Int
  checkEveryN : Int
  count : Int
  startOfPeriod : Int
  lastRoll : Int
  lastFlush : Int
  file : Option RolledFile
  closed : List RolledFile
  deriving DecidableEq, Repr

namespace LogFile

variable (localtime : Int → Tm)

/-- `.%Y%m%d-%H%M%S` of `strftime` between the base name and the extension. -/
def getLogFileName (basename : List UInt8) (now : Int) : List UInt8 :=
  let tm := localtime now
  basename ++ (ascii "." ++ (decimal (tm.year + 1900) ++ (zeroPadded 2 (tm.mon + 1) ++
    (zeroPadded 2 tm.mday ++ (ascii "-" ++ (zeroPadded 2 tm.hour ++ (zeroPadded 2 tm.min ++
      (zeroPadded 2 tm.sec ++ ascii ".log"))))))))

/-- `rollFile` at its reading of the clock. -/
def rollFile (log : LogFile) (now : Int) : LogFile × Bool :=
  let filename := getLogFileName localtime log.basename now
  let start := now.tdiv kRollPerSeconds * kRollPerSeconds
  if log.lastRoll < now then
    ({ log with
      lastFlush := now
      lastRoll := now
      startOfPeriod := start
      closed := log.closed ++ log.file.toList
      file := some ⟨.construct filename, now, []⟩ }, true)
  else (log, false)

/-- `count_` is not initialised, so it has any value. -/
def construct (basename : List UInt8) (rollsize flushInterval checkEveryN count now : Int) :
    LogFile :=
  (rollFile localtime ⟨basename, rollsize, flushInterval, checkEveryN, count, 0, 0, 0, none, []⟩
    now).1

/-- What `fflush` does to the stream is not modelled. -/
def flush (log : LogFile) : Except Fault LogFile :=
  match log.file with
  | some _ => .ok log
  | none => .error .nullPointer

/-- The write of `appendInlock`. -/
def writeFile (log : LogFile) (call : AppendCall) : Except Fault LogFile :=
  match log.file with
  | some held => do
      let file ← held.file.append call.data call.results
      return { log with file := some { held with file, calls := call :: held.calls } }
  | none => .error .nullPointer

def writtenBytes (log : LogFile) : Except Fault Int :=
  match log.file with
  | some held => .ok held.file.writtenBytes
  | none => .error .nullPointer

/-- The part of `appendInlock` that may roll the file. -/
def checkRoll (log : LogFile) (call : AppendCall) (written : Int) : LogFile :=
  if log.rollsize < written then (log.rollFile localtime call.later).1
  else if log.checkEveryN ≤ log.count then
    let log := { log with count := 0 }
    let thisPeriod := call.now.tdiv kRollPerSeconds * kRollPerSeconds
    if thisPeriod ≠ log.startOfPeriod then (log.rollFile localtime call.later).1 else log
  else log

/-- The part of `appendInlock` that may flush the file. -/
def checkFlush (log : LogFile) (now : Int) : Except Fault LogFile :=
  if log.flushInterval < now - log.lastFlush then flush { log with lastFlush := now }
  else .ok log

def appendInlock (log : LogFile) (call : AppendCall) : Except Fault LogFile := do
  let log ← log.writeFile call
  let log := { log with count := wrapInt (log.count + 1) }
  let written ← log.writtenBytes
  (log.checkRoll localtime call written).checkFlush call.now

/-- `append` holds the lock all the time. -/
def append (log : LogFile) (call : AppendCall) : Except Fault LogFile :=
  log.appendInlock localtime call

/-- All the files that were opened. -/
def files (log : LogFile) : List RolledFile := log.closed ++ log.file.toList

/-- The log when `wrote` is closed and a file opened. -/
def rolled (log : LogFile) (wrote : RolledFile) (now : Int) : LogFile :=
  { log with
    lastFlush := now
    lastRoll := now
    startOfPeriod := now.tdiv kRollPerSeconds * kRollPerSeconds
    closed := log.closed ++ [wrote]
    file := some ⟨.construct (getLogFileName localtime log.basename now), now, []⟩ }

/-- What `append` does once `wrote` is what the write left of the file, by its cases. -/
inductive Appended (log : LogFile) (wrote : RolledFile) (call : AppendCall) : LogFile → Prop
  | rolledFull {lastFlush : Int} (full : log.rollsize < wrote.file.writtenBytes)
      (ticked : log.lastRoll < call.later) :
      Appended log wrote call
        { log.rolled localtime wrote call.later with count := wrapInt (log.count + 1), lastFlush }
  | refusedFull {lastFlush : Int} (full : log.rollsize < wrote.file.writtenBytes)
      (same : call.later ≤ log.lastRoll) :
      Appended log wrote call
        { log with file := some wrote, count := wrapInt (log.count + 1), lastFlush }
  | counted {lastFlush : Int} (room : wrote.file.writtenBytes ≤ log.rollsize)
      (few : wrapInt (log.count + 1) < log.checkEveryN) :
      Appended log wrote call
        { log with file := some wrote, count := wrapInt (log.count + 1), lastFlush }
  | samePeriod {lastFlush : Int} (room : wrote.file.writtenBytes ≤ log.rollsize)
      (checked : log.checkEveryN ≤ wrapInt (log.count + 1))
      (period : call.now.tdiv kRollPerSeconds * kRollPerSeconds = log.startOfPeriod) :
      Appended log wrote call { log with file := some wrote, count := 0, lastFlush }
  | rolledPeriod {lastFlush : Int} (room : wrote.file.writtenBytes ≤ log.rollsize)
      (checked : log.checkEveryN ≤ wrapInt (log.count + 1))
      (period : call.now.tdiv kRollPerSeconds * kRollPerSeconds ≠ log.startOfPeriod)
      (ticked : log.lastRoll < call.later) :
      Appended log wrote call
        { log.rolled localtime wrote call.later with count := 0, lastFlush }
  | refusedPeriod {lastFlush : Int} (room : wrote.file.writtenBytes ≤ log.rollsize)
      (checked : log.checkEveryN ≤ wrapInt (log.count + 1))
      (period : call.now.tdiv kRollPerSeconds * kRollPerSeconds ≠ log.startOfPeriod)
      (same : call.later ≤ log.lastRoll) :
      Appended log wrote call { log with file := some wrote, count := 0, lastFlush }

variable {log : LogFile} {call : AppendCall}

/-- Only `lastFlush_` changes. -/
theorem checkFlush_ok (log : LogFile) {held : RolledFile} (there : log.file = some held)
    (now : Int) :
    ∃ lastFlush, log.checkFlush now = .ok { log with lastFlush } := by
  unfold checkFlush
  split
  · exact ⟨now, by rw [flush, there]⟩
  · exact ⟨log.lastFlush, rfl⟩

/-- A second file is not opened in one second. -/
theorem rollFile_of_same (log : LogFile) {now : Int} (same : now ≤ log.lastRoll) :
    (log.rollFile localtime now).1 = log := by
  rw [rollFile, if_neg (by omega)]

theorem rollFile_of_ticked (log : LogFile) {now : Int} {wrote : RolledFile}
    (there : log.file = some wrote)
    (ticked : log.lastRoll < now) :
    (log.rollFile localtime now).1 = log.rolled localtime wrote now := by
  rw [rollFile, if_pos ticked, there]
  rfl

/-- A call whose write returns returns. -/
theorem append_appended {held : RolledFile} {file : FileUtil} (there : log.file = some held)
    (written : held.file.append call.data call.results = .ok file) :
    ∃ log', log.append localtime call = .ok log' ∧
      log.Appended localtime { held with file, calls := call :: held.calls } call log' := by
  let wrote : RolledFile := { held with file, calls := call :: held.calls }
  let counted : LogFile := { log with file := some wrote, count := wrapInt (log.count + 1) }
  have appended : log.append localtime call =
      (counted.checkRoll localtime call file.writtenBytes).checkFlush call.now := by
    simp only [append, appendInlock, writeFile, there, written, bind, Except.bind]
    rfl
  rw [appended]
  unfold checkRoll
  by_cases full : log.rollsize < file.writtenBytes
  · rw [if_pos full]
    by_cases ticked : log.lastRoll < call.later
    · rw [rollFile_of_ticked localtime counted rfl ticked]
      obtain ⟨lastFlush, flushed⟩ :=
        checkFlush_ok (counted.rolled localtime wrote call.later) rfl call.now
      exact ⟨_, flushed, .rolledFull full ticked⟩
    · rw [rollFile_of_same localtime counted (Int.not_lt.mp ticked)]
      obtain ⟨lastFlush, flushed⟩ := checkFlush_ok counted rfl call.now
      exact ⟨_, flushed, .refusedFull full (Int.not_lt.mp ticked)⟩
  · rw [if_neg full]
    by_cases checked : log.checkEveryN ≤ wrapInt (log.count + 1)
    · let reset : LogFile := { counted with count := 0 }
      rw [if_pos checked]
      by_cases period : call.now.tdiv kRollPerSeconds * kRollPerSeconds = log.startOfPeriod
      · obtain ⟨lastFlush, flushed⟩ := checkFlush_ok reset rfl call.now
        rw [if_neg (not_not_intro period)]
        exact ⟨_, flushed, .samePeriod (Int.not_lt.mp full) checked period⟩
      · rw [if_pos period]
        by_cases ticked : log.lastRoll < call.later
        · obtain ⟨lastFlush, flushed⟩ :=
            checkFlush_ok (reset.rolled localtime wrote call.later) rfl call.now
          rw [rollFile_of_ticked localtime reset rfl ticked]
          exact ⟨_, flushed, .rolledPeriod (Int.not_lt.mp full) checked period ticked⟩
        · obtain ⟨lastFlush, flushed⟩ := checkFlush_ok reset rfl call.now
          rw [rollFile_of_same localtime reset (Int.not_lt.mp ticked)]
          exact ⟨_, flushed, .refusedPeriod (Int.not_lt.mp full) checked period
            (Int.not_lt.mp ticked)⟩
    · rw [if_neg checked]
      obtain ⟨lastFlush, flushed⟩ := checkFlush_ok counted rfl call.now
      exact ⟨_, flushed, .counted (Int.not_lt.mp full) (Int.not_le.mp checked)⟩

/-- A call that returned wrote to a file. -/
theorem append_cases {log' : LogFile} (returned : log.append localtime call = .ok log') :
    ∃ held file, log.file = some held ∧
      held.file.append call.data call.results = .ok file ∧
      log.Appended localtime { held with file, calls := call :: held.calls } call log' := by
  cases there : log.file with
  | none =>
      simp only [append, appendInlock, writeFile, there, bind, Except.bind] at returned
      cases returned
  | some held =>
      cases written : held.file.append call.data call.results with
      | error fault =>
          simp only [append, appendInlock, writeFile, there, written, bind, Except.bind] at returned
          cases returned
      | ok file =>
          obtain ⟨next, same, appended⟩ := append_appended localtime there written
          rw [returned] at same
          cases same
          exact ⟨held, file, rfl, written, appended⟩

end LogFile

end KamaWebserver
