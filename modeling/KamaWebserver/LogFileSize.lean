import KamaWebserver.Library.Transition
import KamaWebserver.LogFile

set_option autoImplicit false

namespace KamaWebserver

open Outcome Decimal

/-- `fwrite_unlocked` takes all it is offered. -/
def AppendCall.Complete (call : AppendCall) : Prop :=
  call.results ≠ [] ∧ ∀ result ∈ call.results, call.data.length ≤ result.count

/-- From the reading `clock` on the clock never goes back. -/
def Clocked : (clock : Int) → List AppendCall → Prop
  | _, [] => True
  | clock, call :: calls => clock ≤ call.now ∧ call.now ≤ call.later ∧ Clocked call.later calls

/-- The length of the largest append. -/
def largest (calls : List AppendCall) : Nat := (calls.map (·.data.length)).max?.getD 0

namespace RolledFile

/-- The bytes of a list of calls, which has the latest first. -/
def bytesOf (calls : List AppendCall) : List UInt8 := calls.reverse.flatMap (·.data)

/-- How many bytes were appended while the check behind the write still saw the clock in the
second in which the file was opened. -/
def early (held : RolledFile) : Nat :=
  (bytesOf (held.calls.filter (·.later = held.opened))).length

@[simp] theorem bytesOf_cons (call : AppendCall) (calls : List AppendCall) :
    bytesOf (call :: calls) = bytesOf calls ++ call.data := by
  simp [bytesOf]

/-- The file after a complete write. -/
def wrote (held : RolledFile) (call : AppendCall) : RolledFile :=
  { held with
    file := { held.file with
      contents := held.file.contents ++ call.data
      writtenBytes := held.file.writtenBytes + call.data.length }
    calls := call :: held.calls }

/-- What is in the file is what its calls appended. -/
structure Counted (held : RolledFile) : Prop where
  contents : held.file.contents = bytesOf held.calls
  written : held.file.writtenBytes = held.file.contents.length

/-- The size a file has while it is open. -/
def Bounded (rollsize : Int) (extra : Nat) (held : RolledFile) : Prop :=
  (held.file.contents.length : Int) ≤ max rollsize held.early + extra

end RolledFile

namespace RolledFile

variable {held : RolledFile} {rollsize : Int} {extra : Nat}

theorem Counted.wrote (counted : held.Counted) (call : AppendCall) : (held.wrote call).Counted := by
  refine ⟨?_, ?_⟩
  · rw [RolledFile.wrote, bytesOf_cons, ← counted.contents]
  · simp only [RolledFile.wrote, counted.written, List.length_append]
    omega

theorem early_le_wrote (held : RolledFile) (call : AppendCall) :
    held.early ≤ (held.wrote call).early := by
  have more : (held.wrote call).early =
      (bytesOf ((call :: held.calls).filter (·.later = held.opened))).length := rfl
  rw [more, List.filter_cons]
  split
  · rw [bytesOf_cons, List.length_append]
    exact Nat.le_add_right _ _
  · exact Nat.le_refl _

theorem bounded_new (rollsize : Int) (name : List UInt8) (now : Int) :
    (⟨.construct name, now, []⟩ : RolledFile).Bounded rollsize 0 := by
  simp only [Bounded, FileUtil.construct, List.length_nil]
  omega

/-- One more append takes the file past its bound by the append at most. -/
theorem Bounded.wrote (bounded : held.Bounded rollsize 0) {call : AppendCall}
    (short : call.data.length ≤ extra) : (held.wrote call).Bounded rollsize extra := by
  have earlier := held.early_le_wrote call
  have grown : (held.wrote call).file.contents.length =
      held.file.contents.length + call.data.length := List.length_append
  unfold Bounded at *
  rw [grown]
  omega

/-- All that was appended in the second of the opening is early. -/
theorem Counted.early_eq (counted : held.Counted)
    (same : ∀ call ∈ held.calls, call.later = held.opened) :
    held.early = held.file.contents.length := by
  have all : held.calls.filter (·.later = held.opened) = held.calls := by
    rw [List.filter_eq_self]
    intro call inside
    exact decide_eq_true (same call inside)
  rw [early, all, counted.contents]

end RolledFile

theorem AppendCall.Complete.append {call : AppendCall} (complete : call.Complete)
    (held : RolledFile) :
    held.file.append call.data call.results = .ok (held.wrote call).file := by
  obtain ⟨given, whole⟩ := complete
  obtain ⟨result, rest, results⟩ := List.exists_cons_of_ne_nil given
  have all : call.data.length ≤ result.count := whole result (by simp [results])
  have loop : FileUtil.appendLoop call.data call.results 0 held.file =
      .ok ({ held.file with contents := held.file.contents ++ call.data }, call.data.length) := by
    by_cases empty : call.data = []
    · have ended := FileUtil.appendLoop_end [] call.results held.file
      rw [empty, List.append_nil]
      exact ended
    · have more : 0 ≠ call.data.length := fun none =>
        empty (List.eq_nil_of_length_eq_zero none.symm)
      rw [results, FileUtil.appendLoop, if_pos more]
      simp only [FileUtil.write, List.drop_zero, List.take_of_length_le all,
        Nat.min_eq_right all, Nat.sub_zero, ne_eq, not_true_eq_false, false_and, ↓reduceIte,
        Nat.zero_add]
      exact FileUtil.appendLoop_end _ _ _
  simp only [FileUtil.append, loop, bind, Except.bind]
  rfl

namespace LogFile

/-- While a file is open, either it is not too large yet, or all of it was appended in the
second of its opening; every file that was closed had one more append. -/
structure Rolling (rollsize clock : Int) (extra : Nat) (log : LogFile) : Prop where
  limit : log.rollsize = rollsize
  ticked : log.lastRoll ≤ clock
  opened : ∀ held, log.file = some held → held.opened = log.lastRoll
  since : ∀ held, log.file = some held → ∀ call ∈ held.calls,
    held.opened ≤ call.later ∧ call.later ≤ clock
  counted : ∀ held ∈ log.files, held.Counted
  current : ∀ held, log.file = some held → held.Bounded rollsize 0
  closed : ∀ held ∈ log.closed, held.Bounded rollsize extra

section Runs

variable {localtime : Int → Tm} {rollsize clock : Int} {extra : Nat} {log log' : LogFile}
  {call : AppendCall}

theorem Rolling.counted_wrote {held : RolledFile} (rolling : log.Rolling rollsize clock extra)
    (there : log.file = some held) (call : AppendCall) :
    (∀ other ∈ log.closed, other.Counted) ∧ (held.wrote call).Counted := by
  have counted := rolling.counted
  rw [files, there, Option.toList_some, List.forall_mem_append, List.forall_mem_singleton]
    at counted
  exact ⟨counted.1, counted.2.wrote call⟩

/-- The file stays when it is small enough, or when its second is not over. -/
theorem Rolling.stay {held : RolledFile} (rolling : log.Rolling rollsize clock extra)
    (there : log.file = some held) (before : clock ≤ call.later)
    (reason : (held.wrote call).file.writtenBytes ≤ log.rollsize ∨ call.later ≤ log.lastRoll)
    (count lastFlush : Int) :
    Rolling rollsize call.later extra
      { log with file := some (held.wrote call), count, lastFlush } := by
  have opened := rolling.opened held there
  have ticked := rolling.ticked
  obtain ⟨others, wrote⟩ := rolling.counted_wrote there call
  have since : ∀ other ∈ call :: held.calls, held.opened ≤ other.later ∧
      other.later ≤ call.later := by
    intro other inside
    rcases List.mem_cons.mp inside with rfl | inside
    · omega
    · have := rolling.since held there other inside
      omega
  refine ⟨rolling.limit, Int.le_trans ticked before, ?_, ?_, ?_, ?_, rolling.closed⟩
  · intro other same
    cases same
    exact opened
  · intro other same
    cases same
    exact since
  · rw [files, Option.toList_some, List.forall_mem_append, List.forall_mem_singleton]
    exact ⟨others, wrote⟩
  · intro other same
    cases same
    unfold RolledFile.Bounded
    rcases reason with room | same
    · rw [wrote.written, rolling.limit] at room
      omega
    · have all := wrote.early_eq (fun other inside => by
        have := since other inside
        simp only [RolledFile.wrote]
        omega)
      omega

theorem Rolling.roll {held : RolledFile} (rolling : log.Rolling rollsize clock extra)
    (there : log.file = some held) (short : call.data.length ≤ extra) (count lastFlush : Int) :
    Rolling rollsize call.later extra
      { log.rolled localtime (held.wrote call) call.later with count, lastFlush } := by
  obtain ⟨others, wrote⟩ := rolling.counted_wrote there call
  have bounded := (rolling.current held there).wrote short
  refine ⟨rolling.limit, Int.le_refl _, ?_, ?_, ?_, ?_, ?_⟩
  · intro other same
    cases same
    rfl
  · intro other same later inside
    cases same
    cases inside
  · simp only [files, rolled, Option.toList_some, List.forall_mem_append,
      List.forall_mem_singleton]
    exact ⟨⟨others, wrote⟩, rfl, rfl⟩
  · intro other same
    cases same
    exact RolledFile.bounded_new rollsize _ _
  · simp only [rolled, List.forall_mem_append, List.forall_mem_singleton]
    exact ⟨rolling.closed, bounded⟩

theorem Rolling.append {held : RolledFile} (rolling : log.Rolling rollsize clock extra)
    (there : log.file = some held) (before : clock ≤ call.later)
    (short : call.data.length ≤ extra)
    (appended : log.Appended localtime (held.wrote call) call log') :
    log'.Rolling rollsize call.later extra ∧ log'.file.isSome := by
  cases appended with
  | rolledFull full ticked => exact ⟨rolling.roll there short _ _, rfl⟩
  | refusedFull full same => exact ⟨rolling.stay there before (.inr same) _ _, rfl⟩
  | counted room few => exact ⟨rolling.stay there before (.inl room) _ _, rfl⟩
  | samePeriod room checked period => exact ⟨rolling.stay there before (.inl room) _ _, rfl⟩
  | rolledPeriod room checked period ticked => exact ⟨rolling.roll there short _ _, rfl⟩
  | refusedPeriod room checked period same =>
      exact ⟨rolling.stay there before (.inl room) _ _, rfl⟩

theorem Rolling.run {calls : List AppendCall} (rolling : log.Rolling rollsize clock extra)
    (there : log.file.isSome) (clocked : Clocked clock calls)
    (complete : ∀ call ∈ calls, call.Complete) (short : ∀ call ∈ calls, call.data.length ≤ extra) :
    ∃ log' last, Transition.run (LogFile.append localtime) log calls = .ok log' ∧
      log'.Rolling rollsize last extra := by
  induction calls generalizing log clock with
  | nil => exact ⟨log, clock, rfl, rolling⟩
  | cons call calls ih =>
      obtain ⟨held, opened⟩ := Option.isSome_iff_exists.mp there
      obtain ⟨before, during, after⟩ := clocked
      have whole := complete call List.mem_cons_self
      obtain ⟨next, returned, appended⟩ := append_appended localtime opened (whole.append held)
      obtain ⟨rolls, still⟩ := rolling.append opened (Int.le_trans before during)
        (short call List.mem_cons_self) appended
      obtain ⟨log', last, ran, ends⟩ := ih rolls still after
        (fun other inside => complete other (List.mem_cons_of_mem _ inside))
        (fun other inside => short other (List.mem_cons_of_mem _ inside))
      refine ⟨log', last, ?_, ends⟩
      exact (Transition.run_cons_ok_iff _ _ _ _).mpr ⟨next, returned, ran⟩

theorem construct_rolling (localtime : Int → Tm) (basename : List UInt8)
    (rollsize flushInterval checkEveryN count : Int) {start : Int} (positive : 0 < start)
    (extra : Nat) :
    let log := construct localtime basename rollsize flushInterval checkEveryN count start
    log.Rolling rollsize start extra ∧ log.file.isSome := by
  have opened : construct localtime basename rollsize flushInterval checkEveryN count start =
      ⟨basename, rollsize, flushInterval, checkEveryN, count,
        start.tdiv kRollPerSeconds * kRollPerSeconds, start, start,
        some ⟨.construct (getLogFileName localtime basename start), start, []⟩, []⟩ := by
    rw [construct, rollFile, if_pos positive]
    rfl
  rw [opened]
  refine ⟨⟨rfl, Int.le_refl _, ?_, ?_, ?_, ?_, ?_⟩, rfl⟩
  · intro held same
    cases same
    rfl
  · intro held same call inside
    cases same
    cases inside
  · intro other inside
    obtain rfl := List.mem_singleton.mp inside
    exact ⟨rfl, rfl⟩
  · intro held same
    cases same
    exact RolledFile.bounded_new rollsize _ _
  · intro held inside
    cases inside

/-- Without a positive reading there is no file. -/
theorem construct_null (localtime : Int → Tm) (basename : List UInt8)
    (rollsize flushInterval checkEveryN count : Int) {start : Int} (early : start ≤ 0) :
    (construct localtime basename rollsize flushInterval checkEveryN count start).files = [] ∧
    (construct localtime basename rollsize flushInterval checkEveryN count start).file = none := by
  rw [construct, rollFile_of_same _ _ early]
  exact ⟨rfl, rfl⟩

/-- No file grows past the roll size, or past what was appended to it within the second of its
opening, by more than the largest append. -/
theorem append_run_size (localtime : Int → Tm) (basename : List UInt8)
    (rollsize flushInterval checkEveryN count start : Int) (calls : List AppendCall)
    (clocked : Clocked start calls) (complete : ∀ call ∈ calls, call.Complete) :
    Spec (fun fault => fault = .nullPointer ∧ start ≤ 0)
      (fun log => ∀ held ∈ log.files, held.file.contents = RolledFile.bytesOf held.calls ∧
        (held.file.contents.length : Int) ≤ max rollsize held.early + largest calls)
      (Transition.run (LogFile.append localtime)
        (construct localtime basename rollsize flushInterval checkEveryN count start) calls) := by
  have short : ∀ call ∈ calls, call.data.length ≤ largest calls := fun call inside =>
    List.le_max?_getD_of_mem (List.mem_map_of_mem inside)
  rcases Int.lt_or_le 0 start with positive | early
  · obtain ⟨rolling, there⟩ := construct_rolling localtime basename rollsize flushInterval
      checkEveryN count positive (largest calls)
    obtain ⟨log, last, ran, ends⟩ := rolling.run there clocked complete short
    rw [ran]
    intro held inside
    refine ⟨(ends.counted held inside).contents, ?_⟩
    rcases List.mem_append.mp inside with inside | inside
    · exact ends.closed held inside
    · have bounded := ends.current held (by simpa using inside)
      unfold RolledFile.Bounded at bounded
      omega
  · obtain ⟨none, null⟩ :=
      construct_null localtime basename rollsize flushInterval checkEveryN count
      early
    cases calls with
    | nil =>
        intro held inside
        rw [none] at inside
        cases inside
    | cons call calls =>
        have failed : append localtime (construct localtime basename rollsize flushInterval
            checkEveryN count start) call = .error .nullPointer := by
          simp only [append, appendInlock, writeFile, null, bind, Except.bind]
        simp only [Transition.run, failed]
        exact ⟨rfl, early⟩

end Runs

/-- Three appends of ten bytes in the second in which the file was opened. -/
def sameSecond : List AppendCall :=
  List.replicate 3 ⟨List.replicate 10 0x78, [⟨10, false⟩], 1000, 1000⟩

theorem sameSecond_clocked : Clocked 1000 sameSecond := by
  refine ⟨?_, ?_, ?_, ?_, ?_, ?_, trivial⟩ <;> decide

theorem sameSecond_complete : ∀ call ∈ sameSecond, call.Complete := by
  intro call inside
  obtain rfl := List.eq_of_mem_replicate inside
  exact ⟨by decide, by decide⟩

theorem append_run_size_sameSecond :
    Spec (fun fault => fault = .nullPointer ∧ (1000 : Int) ≤ 0)
      (fun log => ∀ held ∈ log.files, held.file.contents = RolledFile.bytesOf held.calls ∧
        (held.file.contents.length : Int) ≤ max 10 held.early + largest sameSecond)
      (Transition.run (LogFile.append (localtime 0))
        (construct (localtime 0) (ascii "log") 10 3 1024 7 1000) sameSecond) :=
  append_run_size (localtime 0) (ascii "log") 10 3 1024 7 1000 sameSecond sameSecond_clocked
    sameSecond_complete

/-- The file is not rolled before its second is over, whatever its size. -/
theorem append_run_sameSecond_exceeds :
    Clocked 1000 sameSecond ∧ (∀ call ∈ sameSecond, call.Complete) ∧
    ∃ log, Transition.run (LogFile.append (localtime 0))
        (construct (localtime 0) (ascii "log") 10 3 1024 7 1000) sameSecond = .ok log ∧
      ∃ held ∈ log.files, (10 : Int) + largest sameSecond < held.file.contents.length := by
  refine ⟨sameSecond_clocked, sameSecond_complete, _, rfl, _, List.mem_singleton_self _, ?_⟩
  decide

end LogFile

end KamaWebserver
