import KamaWebserver.Library.Transition
import KamaWebserver.LogFile

set_option autoImplicit false

namespace KamaWebserver

open Outcome

namespace FileUtil

/-- The stream took the first bytes of the block, and just these were counted. -/
def Accounted (file : FileUtil) (data : List UInt8) (after : FileUtil) : Prop :=
  ∃ accepted, accepted <+: data ∧ after.contents = file.contents ++ accepted ∧
    after.writtenBytes = file.writtenBytes + accepted.length

/-- The first `fwrite_unlocked` that comes short with the error flag set takes no byte. -/
def ErrorTakesNothing (remain : Nat) (results : List FwriteResult) : Prop :=
  ∀ before stopped after, results = before ++ stopped :: after →
    (∀ result ∈ before, result.error = false) →
    (before.map (·.count)).sum + stopped.count < remain → stopped.error = true →
    stopped.count = 0

/-- What `append` counts when `remain` bytes are left. -/
def counted : (remain : Nat) → List FwriteResult → Nat
  | _, [] => 0
  | remain, result :: results =>
      if result.count < remain then
        if result.error then 0 else result.count + counted (remain - result.count) results
      else remain

/-- What the `fwrite_unlocked` took at which `append` gives up with `remain` bytes left. -/
def uncounted : (remain : Nat) → List FwriteResult → Nat
  | _, [] => 0
  | remain, result :: results =>
      if result.count < remain then
        if result.error then result.count else uncounted (remain - result.count) results
      else 0

theorem errorTakesNothing_cons (remain : Nat) (result : FwriteResult)
    (results : List FwriteResult) :
    ErrorTakesNothing remain (result :: results) ↔
      (result.count < remain → result.error = true → result.count = 0) ∧
      (result.count < remain → result.error = false →
        ErrorTakesNothing (remain - result.count) results) := by
  constructor
  · intro takes
    refine ⟨fun short error => takes [] result results rfl nofun (by simpa using short) error, ?_⟩
    intro short clear before stopped after same clears shorter error
    refine takes (result :: before) stopped after (by rw [same]; rfl) ?_ ?_ error
    · exact List.forall_mem_cons.mpr ⟨clear, clears⟩
    · rw [List.map_cons, List.sum_cons]
      omega
  · intro ⟨here, later⟩ before stopped after same clears shorter error
    cases before with
    | nil =>
        cases same
        exact here (by simpa using shorter) error
    | cons first before =>
        cases same
        rw [List.map_cons, List.sum_cons] at shorter
        have all := List.forall_mem_cons.mp clears
        exact later (by omega) all.1 before stopped after rfl all.2 (by omega) error

theorem uncounted_eq_zero_iff (remain : Nat) (results : List FwriteResult) :
    uncounted remain results = 0 ↔ ErrorTakesNothing remain results := by
  induction results generalizing remain with
  | nil =>
      refine iff_of_true rfl fun before stopped after same => ?_
      exact absurd same (by simp)
  | cons result results ih =>
      rw [errorTakesNothing_cons, uncounted]
      by_cases short : result.count < remain
      · cases failed : result.error with
        | true => simp [short]
        | false => simp [short, ih]
      · simp [short]

variable {data : List UInt8} {results : List FwriteResult} {file after : FileUtil}

/-- The bytes taken are the counted ones and those of the last `fwrite_unlocked`. -/
theorem appendLoop_taken {base : List UInt8} {writen last : Nat} (within : writen ≤ data.length)
    (taken : file.contents = base ++ data.take writen)
    (returned : appendLoop data results writen file = .ok (after, last)) :
    last = writen + counted (data.length - writen) results ∧
    last + uncounted (data.length - writen) results ≤ data.length ∧
    after.contents = base ++ data.take (last + uncounted (data.length - writen) results) ∧
    after.writtenBytes = file.writtenBytes := by
  induction results generalizing writen file with
  | nil =>
      rw [appendLoop] at returned
      split at returned
      · cases returned
      · cases returned
        exact ⟨rfl, within, taken, rfl⟩
  | cons result results ih =>
      have wrote : (file.write (data.drop writen) result).1.contents =
          base ++ data.take (writen + result.count) := by
        simp only [write, taken, List.append_assoc, ← List.take_add]
      have number : (file.write (data.drop writen) result).2 =
          min result.count (data.length - writen) := by
        simp only [write, List.length_drop]
      rw [appendLoop] at returned
      split at returned
      · simp only [number] at returned
        rw [counted, uncounted]
        by_cases short : result.count < data.length - writen
        · rw [if_pos short, if_pos short]
          rw [Nat.min_eq_left (Nat.le_of_lt short)] at returned
          cases failed : result.error with
          | true =>
              rw [if_pos ⟨Nat.ne_of_lt short, failed⟩] at returned
              cases returned
              rw [if_pos rfl, if_pos rfl]
              exact ⟨rfl, by omega, wrote, rfl⟩
          | false =>
              rw [if_neg (by simp [failed])] at returned
              have rest := ih (by omega) wrote returned
              rw [Nat.sub_add_eq, Nat.add_assoc] at rest
              exact rest
        · -- the block is finished, whatever the flag says
          rw [if_neg short, if_neg short]
          rw [Nat.min_eq_right (Nat.not_lt.mp short), if_neg (by simp),
            Nat.add_sub_cancel' within, appendLoop_end] at returned
          cases returned
          refine ⟨by omega, Nat.le_refl _, ?_, rfl⟩
          rw [wrote, List.take_of_length_le (by omega), Nat.add_zero, List.take_length]
      · cases returned
        rw [counted, uncounted, if_neg (by omega), if_neg (by omega)]
        exact ⟨by omega, within, taken, rfl⟩

/-- `append` adds a first part of the block to the file, of which it leaves the bytes of the
`fwrite_unlocked` that failed out of its count. -/
theorem append_taken (returned : file.append data results = .ok after) :
    let took := counted data.length results + uncounted data.length results
    took ≤ data.length ∧ after.contents = file.contents ++ data.take took ∧
      after.writtenBytes = file.writtenBytes + counted data.length results := by
  obtain ⟨⟨written, last⟩, looped, result⟩ := (bind_ok_iff _ _ _).mp returned
  obtain ⟨total, within, contents, count⟩ :=
    appendLoop_taken (Nat.zero_le _) (List.append_nil file.contents).symm looped
  rw [Nat.zero_add, Nat.sub_zero] at total
  subst total
  cases result
  exact ⟨within, contents, by rw [← count]⟩

/-- The count grows by just the bytes taken, unless the `fwrite_unlocked` that sets the error
flag took some. -/
theorem append_accounted_iff (file after : FileUtil) (data : List UInt8)
    (results : List FwriteResult) (returned : file.append data results = .ok after) :
    Accounted file data after ↔ ErrorTakesNothing data.length results := by
  obtain ⟨within, contents, count⟩ := append_taken returned
  rw [← uncounted_eq_zero_iff]
  constructor
  · intro ⟨accepted, _, same, grown⟩
    rw [contents, List.append_cancel_left_eq] at same
    have length := congrArg List.length same
    rw [List.length_take_of_le within] at length
    omega
  · intro none
    rw [none, Nat.add_zero] at within contents
    refine ⟨data.take (counted data.length results), List.take_prefix _ _, contents, ?_⟩
    rw [List.length_take_of_le within]
    exact count

theorem append_accounted_iff_retried :
    Accounted (construct []) [1, 2, 3] ⟨[], [1, 2, 3], 3⟩ ↔
      ErrorTakesNothing 3 [⟨1, false⟩, ⟨0, false⟩, ⟨2, true⟩] :=
  append_accounted_iff _ _ [1, 2, 3] [⟨1, false⟩, ⟨0, false⟩, ⟨2, true⟩] rfl

/-- Two of three bytes are in the file, and none is counted. -/
theorem append_error_uncounted :
    (construct []).append [1, 2, 3] [⟨2, true⟩] = .ok ⟨[], [1, 2], 0⟩ ∧
      ¬ Accounted (construct []) [1, 2, 3] ⟨[], [1, 2], 0⟩ := by
  refine ⟨rfl, fun ⟨accepted, _, same, grown⟩ => ?_⟩
  have length := congrArg List.length same
  simp only [construct, List.nil_append, List.length_cons, List.length_nil] at length grown
  omega

end FileUtil

/-- What the calls that wrote to the file left out of its count. -/
def RolledFile.uncounted (held : RolledFile) : Nat :=
  (held.calls.map fun call => FileUtil.uncounted call.data.length call.results).sum

/-- The stream was given the bytes that were counted and those that were left out. -/
def RolledFile.Sized (held : RolledFile) : Prop :=
  (held.file.contents.length : Int) = held.file.writtenBytes + held.uncounted

theorem RolledFile.Sized.wrote {held : RolledFile} {file : FileUtil} {call : AppendCall}
    (sized : held.Sized) (written : held.file.append call.data call.results = .ok file) :
    ({ held with file, calls := call :: held.calls } : RolledFile).Sized := by
  obtain ⟨within, contents, count⟩ := FileUtil.append_taken written
  have more : ({ held with file, calls := call :: held.calls } : RolledFile).uncounted =
      FileUtil.uncounted call.data.length call.results + held.uncounted := List.sum_cons
  unfold RolledFile.Sized at *
  rw [more, contents, count, List.length_append, List.length_take_of_le within]
  omega

namespace LogFile

variable {localtime : Int → Tm} {log log' : LogFile} {call : AppendCall} {wrote : RolledFile}

/-- After an append the files are those closed before, the one written to and perhaps a new one. -/
theorem Appended.files (appended : log.Appended localtime wrote call log') {held : RolledFile}
    (inside : held ∈ log'.files) :
    held ∈ log.closed ∨ held = wrote ∨ ∃ name now, held = ⟨.construct name, now, []⟩ := by
  cases appended with
  | rolledFull | rolledPeriod =>
      simp only [LogFile.files, rolled, Option.toList_some, List.mem_append,
        List.mem_singleton] at inside
      rcases inside with (before | here) | new
      · exact .inl before
      · exact .inr (.inl here)
      · exact .inr (.inr ⟨_, _, new⟩)
  | refusedFull | counted | samePeriod | refusedPeriod =>
      simp only [LogFile.files, Option.toList_some, List.mem_append, List.mem_singleton] at inside
      rcases inside with before | here
      · exact .inl before
      · exact .inr (.inl here)

theorem append_sized (sized : ∀ held ∈ log.files, held.Sized)
    (returned : log.append localtime call = .ok log') : ∀ held ∈ log'.files, held.Sized := by
  obtain ⟨held, file, there, written, appended⟩ := append_cases localtime returned
  rw [LogFile.files, there, Option.toList_some, List.forall_mem_append,
    List.forall_mem_singleton] at sized
  intro other inside
  rcases appended.files inside with before | rfl | ⟨name, now, rfl⟩
  · exact sized.1 other before
  · exact sized.2.wrote written
  · rfl

/-- In every run the size test takes a file to be as large as it is but for the bytes that its
calls left out of the count. -/
theorem append_run_sized (localtime : Int → Tm) (basename : List UInt8)
    (rollsize flushInterval checkEveryN count start : Int) (calls : List AppendCall)
    (ran : Transition.run (LogFile.append localtime)
      (construct localtime basename rollsize flushInterval checkEveryN count start) calls =
        .ok log) :
    ∀ held ∈ log.files, held.Sized := by
  refine Transition.Reachable.preserves (fun log : LogFile => ∀ held ∈ log.files, held.Sized)
    (fun _ _ _ sized returned => append_sized sized returned) ?_ ⟨calls, ran⟩
  intro held inside
  unfold construct rollFile at inside
  split at inside
  · obtain rfl := List.mem_singleton.mp inside
    rfl
  · cases inside

end LogFile

end KamaWebserver
