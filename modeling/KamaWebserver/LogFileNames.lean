import KamaWebserver.LogFileSize
import KamaWebserver.LogTimestamps

set_option autoImplicit false

namespace KamaWebserver

open Outcome Decimal

/-- The fields tell the second. -/
theorem localtime_inj {offset first second : Int} :
    localtime offset first = localtime offset second ↔ first = second := by
  refine ⟨fun same => ?_, fun same => by rw [same]⟩
  have day := Calendar.dateOf_inj (epochDay + (first + offset) / 86400)
    (epochDay + (second + offset) / 86400)
  rw [Calendar.Date.ext_iff] at day
  simp only [localtime, Tm.mk.injEq] at same
  omega

namespace LogFile

variable {offset : Int}

/-- The digits of the reading, field by field. -/
theorem getLogFileName_eq (basename : List UInt8) {now : Int}
    (valid : (localtime offset now).FourDigits) :
    getLogFileName (localtime offset) basename now = basename ++ (ascii "." ++
      (fixed 4 ((localtime offset now).year + 1900).natAbs ++
      (fixed 2 ((localtime offset now).mon + 1).natAbs ++
      (fixed 2 (localtime offset now).mday.natAbs ++ (ascii "-" ++
      (fixed 2 (localtime offset now).hour.natAbs ++
      (fixed 2 (localtime offset now).min.natAbs ++
      (fixed 2 (localtime offset now).sec.natAbs ++ ascii ".log")))))))) := by
  obtain ⟨year, mon, mday, hour, min⟩ := valid
  have sec : 0 ≤ (localtime offset now).sec ∧ (localtime offset now).sec < 60 := by
    simp only [localtime]
    omega
  rw [getLogFileName, decimal_of_nonneg (by omega),
    digits_of_wide (show 0 < 3 by decide) (by omega) (by omega),
    zeroPadded_of_nonneg (by omega) (by decide) (by omega),
    zeroPadded_of_nonneg (by omega) (by decide) (by omega),
    zeroPadded_of_nonneg (by omega) (by decide) (by omega),
    zeroPadded_of_nonneg (by omega) (by decide) (by omega),
    zeroPadded_of_nonneg (by omega) (by decide) (by omega)]

/-- Under a fixed offset no two readings give one name. -/
theorem getLogFileName_inj (basename : List UInt8) {first second : Int}
    (valid : (localtime offset first).FourDigits) (other : (localtime offset second).FourDigits) :
    getLogFileName (localtime offset) basename first =
      getLogFileName (localtime offset) basename second ↔ first = second := by
  refine ⟨fun same => ?_, fun same => by rw [same]⟩
  rw [getLogFileName_eq basename valid, getLogFileName_eq basename other,
    List.append_cancel_left_eq, List.append_cancel_left_eq] at same
  obtain ⟨year, mon, mday, hour, min⟩ := valid
  obtain ⟨year', mon', mday', hour', min'⟩ := other
  have sec (now : Int) : 0 ≤ (localtime offset now).sec ∧ (localtime offset now).sec < 60 := by
    simp only [localtime]
    omega
  have here := sec first
  have there := sec second
  rw [fixed_append_inj (by omega) (by omega), fixed_append_inj (by omega) (by omega),
    field_inj (by omega) (by omega), fixed_append_inj (by omega) (by omega),
    fixed_append_inj (by omega) (by omega), fixed_append_inj (by omega) (by omega)] at same
  obtain ⟨years, months, days, hours, minutes, seconds, -⟩ := same
  have fields : localtime offset first = localtime offset second :=
    Tm.ext (by omega) (by omega) days hours minutes seconds
  exact localtime_inj.mp fields

/-- Each file was opened at a later reading than those before it, and is named after it. -/
structure InOrder (localtime : Int → Tm) (basename : List UInt8) (lastRoll : Int)
    (files : List RolledFile) : Prop where
  ordered : files.Pairwise (fun first second => first.opened < second.opened)
  past : ∀ held ∈ files, held.opened ≤ lastRoll
  named : ∀ held ∈ files, held.file.name = getLogFileName localtime basename held.opened

section Runs

variable {localtime : Int → Tm} {basename : List UInt8} {lastRoll : Int}
  {closed files : List RolledFile} {held wrote : RolledFile}

/-- What is written to a file changes neither its name nor its opening. -/
theorem InOrder.write (inOrder : InOrder localtime basename lastRoll (closed ++ [held]))
    (opened : wrote.opened = held.opened) (name : wrote.file.name = held.file.name) :
    InOrder localtime basename lastRoll (closed ++ [wrote]) := by
  obtain ⟨ordered, past, named⟩ := inOrder
  rw [List.pairwise_append] at ordered
  rw [List.forall_mem_append, List.forall_mem_singleton] at past named
  obtain ⟨before, -, last⟩ := ordered
  refine ⟨List.pairwise_append.mpr ⟨before, List.pairwise_singleton _ _, ?_⟩, ?_, ?_⟩
  · intro first inside
    rw [List.forall_mem_singleton, opened]
    exact last first inside held (List.mem_singleton_self held)
  · rw [List.forall_mem_append, List.forall_mem_singleton, opened]
    exact past
  · rw [List.forall_mem_append, List.forall_mem_singleton, opened, name]
    exact named

theorem InOrder.open {now : Int} (inOrder : InOrder localtime basename lastRoll files)
    (ticked : lastRoll < now) :
    InOrder localtime basename now
      (files ++ [⟨.construct (getLogFileName localtime basename now), now, []⟩]) := by
  obtain ⟨ordered, past, named⟩ := inOrder
  refine ⟨List.pairwise_append.mpr ⟨ordered, List.pairwise_singleton _ _, ?_⟩, ?_, ?_⟩
  · intro first inside
    rw [List.forall_mem_singleton]
    exact Int.lt_of_le_of_lt (past first inside) ticked
  · rw [List.forall_mem_append, List.forall_mem_singleton]
    refine ⟨fun other inside => ?_, Int.le_refl now⟩
    exact Int.le_trans (past other inside) (Int.le_of_lt ticked)
  · rw [List.forall_mem_append, List.forall_mem_singleton]
    exact ⟨named, rfl⟩

variable {log log' : LogFile} {call : AppendCall}

theorem InOrder.append (inOrder : InOrder localtime log.basename log.lastRoll log.files)
    (returned : log.append localtime call = .ok log') :
    InOrder localtime log'.basename log'.lastRoll log'.files := by
  obtain ⟨held, file, there, written, appended⟩ := append_cases localtime returned
  have listed : log.files = log.closed ++ [held] := by
    rw [files, there]
    rfl
  rw [listed] at inOrder
  have stays : InOrder localtime log.basename log.lastRoll
      (log.closed ++ [{ held with file, calls := call :: held.calls }]) :=
    inOrder.write rfl (FileUtil.append_name written)
  cases appended with
  | rolledFull full ticked => exact stays.open ticked
  | refusedFull full same => exact stays
  | counted room few => exact stays
  | samePeriod room checked period => exact stays
  | rolledPeriod room checked period ticked => exact stays.open ticked
  | refusedPeriod room checked period same => exact stays

theorem construct_inOrder (localtime : Int → Tm) (basename : List UInt8)
    (rollsize flushInterval checkEveryN count start : Int) :
    let log := construct localtime basename rollsize flushInterval checkEveryN count start
    InOrder localtime log.basename log.lastRoll log.files := by
  have none : InOrder localtime basename 0 [] := ⟨.nil, by simp, by simp⟩
  by_cases positive : 0 < start
  · rw [construct, rollFile, if_pos positive]
    exact none.open positive
  · rw [construct, rollFile, if_neg positive]
    exact none

theorem run_inOrder {calls : List AppendCall}
    (inOrder : InOrder localtime log.basename log.lastRoll log.files)
    (ran : Transition.run (LogFile.append localtime) log calls = .ok log') :
    InOrder localtime log'.basename log'.lastRoll log'.files :=
  Transition.Reachable.preserves
    (fun log => InOrder localtime log.basename log.lastRoll log.files)
    (fun _ _ _ inOrder returned => inOrder.append returned) inOrder ⟨calls, ran⟩

end Runs

/-- Whatever the clock does, no two files of a log have one name. -/
theorem run_names_distinct {offset : Int} (basename : List UInt8)
    (rollsize flushInterval checkEveryN count start : Int) {calls : List AppendCall} {log : LogFile}
    (ran : Transition.run (LogFile.append (localtime offset))
      (construct (localtime offset) basename rollsize flushInterval checkEveryN count start) calls =
        .ok log)
    (years : ∀ held ∈ log.files, (localtime offset held.opened).FourDigits) :
    log.files.Pairwise (fun first second => first.file.name ≠ second.file.name) := by
  have inOrder := run_inOrder (construct_inOrder _ basename rollsize flushInterval checkEveryN count
    start) ran
  refine inOrder.ordered.imp_of_mem fun first second earlier => ?_
  rw [inOrder.named _ first, inOrder.named _ second, ne_eq,
    getLogFileName_inj _ (years _ first) (years _ second)]
  omega

end LogFile

end KamaWebserver
