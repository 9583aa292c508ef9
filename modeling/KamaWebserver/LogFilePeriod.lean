import KamaWebserver.LogFileSize
import KamaWebserver.WriteAccounting

set_option autoImplicit false

namespace KamaWebserver

open Outcome Transition Decimal

/-- The start of the period of a reading. -/
def periodOf (now : Int) : Int := now.tdiv kRollPerSeconds * kRollPerSeconds

theorem periodOf_of_nonneg {now : Int} (positive : 0 ≤ now) :
    periodOf now = now / 86400 * 86400 := by
  unfold periodOf kRollPerSeconds
  rw [Int.tdiv_eq_ediv_of_nonneg positive]
  rfl

/-- Once the clock has left a period it does not come back. -/
theorem periodOf_ne {opened entered now : Int} (positive : 0 ≤ opened) (ticked : opened ≤ entered)
    (left : periodOf entered ≠ periodOf opened) (after : entered ≤ now) :
    periodOf now ≠ periodOf opened ∧ opened < now := by
  rw [periodOf_of_nonneg positive, periodOf_of_nonneg (by omega)] at left
  rw [periodOf_of_nonneg positive, periodOf_of_nonneg (by omega)]
  omega

theorem wrapInt_of_lt {n : Int} (lower : -2147483648 ≤ n) (upper : n < 2147483648) :
    wrapInt n = n :=
  Int.bmod_eq_of_le lower upper

theorem wrapInt_bounds (n : Int) : -2147483648 ≤ wrapInt n ∧ wrapInt n < 2147483648 :=
  ⟨Int.le_bmod (by decide), Int.bmod_lt (by decide)⟩

namespace RolledFile

/-- What the calls add to the count of the file they are all written to. -/
def counted (calls : List AppendCall) : Nat :=
  (calls.map fun call => FileUtil.counted call.data.length call.results).sum

@[simp] theorem counted_cons (call : AppendCall) (calls : List AppendCall) :
    counted (call :: calls) =
      FileUtil.counted call.data.length call.results + counted calls := by
  simp [counted]

end RolledFile

namespace LogFile

/-- The file was opened at the reading of the last roll, which gave the period its start. -/
structure Dated (checkEveryN clock : Int) (log : LogFile) : Prop where
  limit : log.checkEveryN = checkEveryN
  opened : ∀ held, log.file = some held → 0 < held.opened ∧ held.opened ≤ clock ∧
    log.lastRoll = held.opened ∧ log.startOfPeriod = periodOf held.opened

/-- From the reading `entered` on the clock is in another period than that of the file. -/
def Overdue (log : LogFile) (entered : Int) : Prop :=
  ∀ now, entered ≤ now → periodOf now ≠ log.startOfPeriod ∧ log.lastRoll < now

section Runs

variable {localtime : Int → Tm} {checkEveryN clock entered : Int} {log log' : LogFile}
  {held wrote : RolledFile} {call : AppendCall}

theorem Dated.overdue (dated : log.Dated checkEveryN clock) (there : log.file = some held)
    (after : clock ≤ entered) (left : periodOf entered ≠ periodOf held.opened) :
    log.Overdue entered := by
  obtain ⟨positive, past, last, start⟩ := dated.opened held there
  intro now later
  rw [start, last]
  exact periodOf_ne (Int.le_of_lt positive) (Int.le_trans past after) left later

theorem construct_dated (localtime : Int → Tm) (basename : List UInt8)
    (rollsize flushInterval checkEveryN count start : Int) :
    (construct localtime basename rollsize flushInterval checkEveryN count start).Dated
      checkEveryN start := by
  rcases Int.lt_or_le 0 start with positive | early
  · rw [construct, rollFile, if_pos positive]
    refine ⟨rfl, ?_⟩
    intro held there
    cases there
    exact ⟨positive, Int.le_refl _, rfl, rfl⟩
  · rw [construct, rollFile_of_same _ _ early]
    refine ⟨rfl, ?_⟩
    intro held there
    cases there

/-- The file stays, or one is opened at the reading behind the write. -/
theorem Dated.append (dated : log.Dated checkEveryN clock) (before : clock ≤ call.later)
    (returned : log.append localtime call = .ok log') : log'.Dated checkEveryN call.later := by
  obtain ⟨held, file, there, -, appended⟩ := append_cases localtime returned
  obtain ⟨positive, past, last, start⟩ := dated.opened held there
  cases appended with
  | rolledFull _ ticked | rolledPeriod _ _ _ ticked =>
      have later : 0 < call.later := by omega
      refine ⟨dated.limit, ?_⟩
      intro other same
      cases same
      exact ⟨later, Int.le_refl _, rfl, rfl⟩
  | refusedFull | counted | samePeriod | refusedPeriod =>
      refine ⟨dated.limit, ?_⟩
      intro other same
      cases same
      exact ⟨positive, Int.le_trans past before, last, start⟩

theorem Dated.run {calls later : List AppendCall} (dated : log.Dated checkEveryN clock)
    (clocked : Clocked clock (calls ++ later))
    (ran : Transition.run (LogFile.append localtime) log calls = .ok log') :
    ∃ clock', log'.Dated checkEveryN clock' ∧ Clocked clock' later := by
  induction calls generalizing log clock with
  | nil =>
      cases ran
      exact ⟨clock, dated, clocked⟩
  | cons call calls ih =>
      obtain ⟨before, during, after⟩ := clocked
      obtain ⟨next, returned, rest⟩ := (run_cons_ok_iff _ _ _ _).mp ran
      exact ih (dated.append (Int.le_trans before during) returned) after rest

/-- A file that was opened stays among the files. -/
theorem append_files_le (returned : log.append localtime call = .ok log') :
    log.files.length ≤ log'.files.length := by
  obtain ⟨held, file, there, -, appended⟩ := append_cases localtime returned
  cases appended <;> simp [files, rolled, there]

theorem run_files_le {calls : List AppendCall}
    (ran : Transition.run (LogFile.append localtime) log calls = .ok log') :
    log.files.length ≤ log'.files.length :=
  Reachable.preserves (fun later => log.files.length ≤ later.files.length)
    (fun _ _ _ before returned => Nat.le_trans before (append_files_le returned))
    (Nat.le_refl _) ⟨calls, ran⟩

/-- In a new period an append opens a file when the old one is full or the check is due, and
else leaves all but the file and the counter as it was. -/
theorem Overdue.append (overdue : log.Overdue entered) (there : log.file = some held)
    (after : entered ≤ call.now) (during : call.now ≤ call.later)
    (returned : log.append localtime call = .ok log') :
    let written := held.file.writtenBytes + FileUtil.counted call.data.length call.results
    ((log.rollsize < written ∨ log.checkEveryN ≤ wrapInt (log.count + 1)) ∧
      log.files.length < log'.files.length) ∨
    (written ≤ log.rollsize ∧ wrapInt (log.count + 1) < log.checkEveryN ∧
      ∃ wrote lastFlush, wrote.file.writtenBytes = written ∧
        log' = { log with file := some wrote, count := wrapInt (log.count + 1), lastFlush }) := by
  obtain ⟨other, file, same, taken, appended⟩ := append_cases localtime returned
  obtain rfl := Option.some.inj (there.symm.trans same)
  obtain ⟨-, -, written⟩ := FileUtil.append_taken taken
  have period := (overdue call.now after).1
  have last := (overdue call.later (Int.le_trans after during)).2
  rw [← written]
  cases appended with
  | rolledFull full ticked =>
      refine .inl ⟨.inl full, ?_⟩
      simp [files, rolled, there]
  | rolledPeriod room checked left ticked =>
      refine .inl ⟨.inr checked, ?_⟩
      simp [files, rolled, there]
  | counted room few => exact .inr ⟨room, few, _, _, rfl, rfl⟩
  | refusedFull full stopped => exact absurd stopped (Int.not_le.mpr last)
  | samePeriod room checked stays => exact absurd stays period
  | refusedPeriod room checked left stopped => exact absurd stopped (Int.not_le.mpr last)

/-- In a new period a file is opened when the counter comes to the check, counting up from the
value the first append gives it, or when the size does. -/
theorem Overdue.run {first : AppendCall} {rest : List AppendCall} {next : Int}
    (overdue : log.Overdue entered) (there : log.file = some held) (after : entered ≤ clock)
    (clocked : Clocked clock (first :: rest)) (int : wrapInt log.checkEveryN = log.checkEveryN)
    (incremented : wrapInt (log.count + 1) = next)
    (ran : Transition.run (LogFile.append localtime) log (first :: rest) = .ok log') :
    log.files.length < log'.files.length ↔
      log.checkEveryN ≤ next + rest.length ∨
      log.rollsize < held.file.writtenBytes + RolledFile.counted (first :: rest) := by
  induction rest generalizing log held clock first next with
  | nil =>
      obtain ⟨before, during, -⟩ := clocked
      obtain ⟨last, returned, ended⟩ := (run_cons_ok_iff _ _ _ _).mp ran
      cases ended
      have step := overdue.append there (Int.le_trans after before) during returned
      rw [incremented] at step
      simp only [RolledFile.counted_cons, List.length_nil]
      have none : RolledFile.counted [] = 0 := rfl
      rcases step with ⟨due, opened⟩ | ⟨room, few, wrote, lastFlush, -, rfl⟩
      · exact iff_of_true opened (by omega)
      · refine iff_of_false ?_ (by omega)
        simp [files, there]
  | cons second rest ih =>
      obtain ⟨before, during, later⟩ := clocked
      obtain ⟨middle, returned, ended⟩ := (run_cons_ok_iff _ _ _ _).mp ran
      have step := overdue.append there (Int.le_trans after before) during returned
      rw [incremented] at step
      rw [RolledFile.counted_cons, List.length_cons]
      rcases step with ⟨due, opened⟩ | ⟨room, few, wrote, lastFlush, written, rfl⟩
      · have more := run_files_le ended
        exact iff_of_true (by omega) (by omega)
      · have low := (wrapInt_bounds (log.count + 1)).1
        have high := (wrapInt_bounds log.checkEveryN).2
        have counts : wrapInt (next + 1) = next + 1 := wrapInt_of_lt (by omega) (by omega)
        let kept : LogFile := { log with file := some wrote, count := next, lastFlush }
        have still : kept.Overdue entered := overdue
        have same : kept.files.length = log.files.length := by
          simp [kept, files, there]
        have tail := ih still rfl (Int.le_trans after (Int.le_trans before during)) later int
          counts ended
        rw [same, written] at tail
        rw [tail]
        dsimp only [kept]
        omega

/-- As many appends as the check allows open a file when the first of them brings the counter
above zero. -/
theorem Dated.rolled_iff {first : AppendCall} {rest : List AppendCall}
    (dated : log.Dated checkEveryN clock) (int : wrapInt checkEveryN = checkEveryN)
    (there : log.file = some held) (clocked : Clocked clock (first :: rest))
    (left : periodOf first.now ≠ periodOf held.opened)
    (number : (rest.length : Int) + 1 = checkEveryN)
    (ran : Transition.run (LogFile.append localtime) log (first :: rest) = .ok log') :
    log.files.length < log'.files.length ↔
      0 < wrapInt (log.count + 1) ∨
      log.rollsize < held.file.writtenBytes + RolledFile.counted (first :: rest) := by
  have overdue := dated.overdue there clocked.1 left
  have entered : Clocked first.now (first :: rest) := ⟨Int.le_refl _, clocked.2⟩
  rw [overdue.run there (Int.le_refl _) entered (by rw [dated.limit, int]) rfl ran, dated.limit]
  omega

theorem construct_count (localtime : Int → Tm) (basename : List UInt8)
    (rollsize flushInterval checkEveryN count start : Int) :
    (construct localtime basename rollsize flushInterval checkEveryN count start).count =
      count := by
  unfold construct rollFile
  split <;> rfl

/-- An append counts up or clears the counter. -/
theorem append_count (returned : log.append localtime call = .ok log') :
    log'.count = wrapInt (log.count + 1) ∨ log'.count = 0 := by
  obtain ⟨held, file, there, -, appended⟩ := append_cases localtime returned
  cases appended with
  | rolledFull | refusedFull | counted => exact .inl rfl
  | samePeriod | rolledPeriod | refusedPeriod => exact .inr rfl

/-- A counter that starts at zero or above stays there until it could overflow. -/
theorem run_count {calls : List AppendCall} (start : 0 ≤ log.count)
    (room : log.count + calls.length < 2147483647)
    (ran : Transition.run (LogFile.append localtime) log calls = .ok log') :
    0 < wrapInt (log'.count + 1) := by
  induction calls generalizing log with
  | nil =>
      cases ran
      rw [List.length_nil] at room
      rw [wrapInt_of_lt (by omega) (by omega)]
      omega
  | cons call calls ih =>
      obtain ⟨next, returned, rest⟩ := (run_cons_ok_iff _ _ _ _).mp ran
      rw [List.length_cons] at room
      have counts := append_count returned
      rw [wrapInt_of_lt (by omega) (by omega)] at counts
      exact ih (by omega) (by omega) rest

/-- With the counter at zero or above from the start, the new period gets its file in time. -/
theorem period_rolled_of_count (localtime : Int → Tm) (basename : List UInt8)
    (rollsize flushInterval checkEveryN count start : Int) (before rest : List AppendCall)
    (first : AppendCall) (log log' : LogFile) (held : RolledFile)
    (int : wrapInt checkEveryN = checkEveryN) (clocked : Clocked start (before ++ first :: rest))
    (initialised : 0 ≤ count) (room : count + before.length < 2147483647)
    (entered : Transition.run (LogFile.append localtime)
      (construct localtime basename rollsize flushInterval checkEveryN count start) before =
        .ok log)
    (there : log.file = some held) (left : periodOf first.now ≠ periodOf held.opened)
    (number : (rest.length : Int) + 1 = checkEveryN)
    (ran : Transition.run (LogFile.append localtime) log (first :: rest) = .ok log') :
    log.files.length < log'.files.length := by
  obtain ⟨clock, dated, later⟩ := (construct_dated localtime basename rollsize flushInterval
    checkEveryN count start).run clocked entered
  have counter := construct_count localtime basename rollsize flushInterval checkEveryN count start
  rw [dated.rolled_iff int there later left number ran]
  exact .inl (run_count (by omega) (by omega) entered)

/-- Whatever the counter starts with, in a new period the allowed number of appends opens a file
if and only if the first of them brings the counter above zero, or the size calls for one. -/
theorem period_rolled_iff (localtime : Int → Tm) (basename : List UInt8)
    (rollsize flushInterval checkEveryN count start : Int) (before rest : List AppendCall)
    (first : AppendCall) (log log' : LogFile) (held : RolledFile)
    (int : wrapInt checkEveryN = checkEveryN) (clocked : Clocked start (before ++ first :: rest))
    (entered : Transition.run (LogFile.append localtime)
      (construct localtime basename rollsize flushInterval checkEveryN count start) before =
        .ok log)
    (there : log.file = some held) (left : periodOf first.now ≠ periodOf held.opened)
    (number : (rest.length : Int) + 1 = checkEveryN)
    (ran : Transition.run (LogFile.append localtime) log (first :: rest) = .ok log') :
    log.files.length < log'.files.length ↔
      0 < wrapInt (log.count + 1) ∨
      log.rollsize < held.file.writtenBytes + RolledFile.counted (first :: rest) := by
  obtain ⟨clock, dated, later⟩ := (construct_dated localtime basename rollsize flushInterval
    checkEveryN count start).run clocked entered
  exact dated.rolled_iff int there later left number ran

end Runs

/-- An append of one byte on the second day. -/
def nextDayCall : AppendCall := ⟨[0x78], [⟨1, false⟩], 90000, 90000⟩

def nextDay : List AppendCall := List.replicate 5 nextDayCall

theorem nextDay_clocked : Clocked 1000 nextDay := by
  refine ⟨?_, ?_, ?_, ?_, ?_, ?_, ?_, ?_, ?_, ?_, trivial⟩ <;> decide

theorem period_rolled_iff_nextDay :
    ∃ log log', Transition.run (LogFile.append (localtime 0))
        (construct (localtime 0) (ascii "log") 100 3 5 0 1000) [] = .ok log ∧
      Transition.run (LogFile.append (localtime 0)) log nextDay = .ok log' ∧
      log.files.length < log'.files.length :=
  ⟨_, _, rfl, rfl, (period_rolled_iff (localtime 0) (ascii "log") 100 3 5 0 1000 []
    (List.replicate 4 nextDayCall) nextDayCall _ _ _ (by decide) nextDay_clocked rfl rfl
    (by decide) (by decide) rfl).mpr (.inl (by decide))⟩

/-- From a counter below zero no file is opened on that day, though each append should have its
check. -/
theorem period_unrolled_negative :
    Clocked 1000 nextDay ∧ (∀ call ∈ nextDay, periodOf call.now ≠ periodOf 1000) ∧
    ∃ log, Transition.run (LogFile.append (localtime 0))
        (construct (localtime 0) (ascii "log") 100 3 1 (-10) 1000) nextDay = .ok log ∧
      log.files.map (·.opened) = [1000] := by
  refine ⟨nextDay_clocked, ?_, _, rfl, rfl⟩
  intro call inside
  obtain rfl := List.eq_of_mem_replicate inside
  decide

end LogFile

end KamaWebserver
