import KamaWebserver.Library.Transition
import KamaWebserver.LogRotation

set_option autoImplicit false

namespace KamaWebserver

open Outcome Transition

/-- The calls of any threads and the steps of the backend; a message may have any length. -/
inductive LogCall
  | append (logline : List UInt8)
  | start
  | stop
  | backend

namespace AsyncLogging

def call (log : AsyncLogging) : LogCall → Except Fault AsyncLogging
  | .append logline => log.append logline
  | .start => log.start
  | .stop => .ok log.stop
  | .backend => log.backend

/-- What the constructor gives to `buffers_.reserve`. -/
def reserved : Nat := 16

/-- No more buffers wait than the constructor has reserved room for. -/
def Bounded (log : AsyncLogging) : Prop := log.buffers.length ≤ reserved

/-- The current buffer has room for the message, or fewer buffers wait than the limit. -/
def Spares (log : AsyncLogging) : LogCall → Prop
  | .append logline =>
      (∀ current, log.currentBuffer = some current → logline.length < current.avail) ∨
        log.buffers.length < reserved
  | _ => True

variable {log log' : AsyncLogging} {event : LogEvent}

/-- Only an `append` makes the queue longer. -/
theorem Stepped.shorter (stepped : Stepped log event log')
    (other : ∀ logline, event ≠ .append logline) :
    log'.buffers.length ≤ log.buffers.length := by
  cases stepped with
  | @filled logline current held room => exact absurd rfl (other logline)
  | @swapped logline current held full => exact absurd rfl (other logline)
  | collected here held given => exact Nat.zero_le _
  | started here | stopped | tested here | waits here drained | wrote here next
  | finished here all | recycled here => exact Nat.le_refl _

/-- A step other than `append` keeps the buffers rotating and the queue within the limit. -/
theorem Rotating.quiet (rotating : log.Rotating) (bounded : log.Bounded) (event : LogEvent)
    (other : ∀ logline, event ≠ .append logline) :
    Spec (fun fault => fault = .notEnabled ∧ True)
      (fun log' => log'.Rotating ∧ (log'.Bounded ↔ True)) (log.step event) := by
  have spec := rotating.stepped event
  cases taken : log.step event with
  | ok log' =>
      have stepped := spec.of_ok taken
      exact ⟨stepped.rotating rotating, iff_of_true ((stepped.shorter other).trans bounded) trivial⟩
  | error fault => exact ⟨spec.of_error taken, trivial⟩

/-- An `append` never fails; without room in the current buffer the queue grows by one. -/
theorem Rotating.append_grows (rotating : log.Rotating) (logline : List UInt8) :
    ∃ log' current, log.append logline = .ok log' ∧ log'.Rotating ∧
      log.currentBuffer = some current ∧
      log'.buffers.length =
        if logline.length < current.avail then log.buffers.length else log.buffers.length + 1 := by
  obtain ⟨current, held, returned⟩ := rotating.append_eq logline
  refine ⟨_, current, returned, ?_, held, ?_⟩
  · split
    · exact rotating.filled _ _
    · exact rotating.swapped _ _ _
  · split
    · rfl
    · exact List.length_append

/-- Every call succeeds or is not enabled, and from a queue within the limit it leads beyond
exactly when its guard is not met. -/
theorem call_bounded (rotating : log.Rotating) (bounded : log.Bounded) (request : LogCall) :
    Spec (fun fault => fault = .notEnabled ∧ log.Spares request)
      (fun log' => log'.Rotating ∧ (log'.Bounded ↔ log.Spares request)) (log.call request) := by
  cases request with
  | append logline =>
      obtain ⟨log', current, returned, rotating', held, length⟩ := rotating.append_grows logline
      rw [call, returned]
      refine ⟨rotating', ?_⟩
      unfold Bounded at bounded ⊢
      rw [length, Spares]
      simp only [held, Option.some.injEq, forall_eq']
      split
      · rename_i room
        simp only [bounded, room, true_or]
      · rename_i full
        simp only [full, false_or, Nat.succ_le_iff]
  | start => exact rotating.quiet bounded .start nofun
  | stop => exact rotating.quiet bounded .stop nofun
  | backend => exact rotating.quiet bounded .backend nofun

/-- In every interleaving the queue stays within the limit exactly while each `append` finds
room in the current buffer or fewer buffers waiting. -/
theorem backlog_bounded_iff (calls : List LogCall) :
    Always call Bounded (fun fault => fault = .notEnabled) create calls ↔
      Guarded call Spares create calls := by
  refine always_iff_guarded (fun log : AsyncLogging => log.Rotating ∧ log.Bounded)
    (fun log inv => inv.2)
    ?_ ?_ ?_ ?_ ⟨create_rotating, Nat.zero_le _⟩ calls
  · intro log request next inv spares taken
    have after := (call_bounded inv.1 inv.2 request).of_ok taken
    exact ⟨after.1, after.2.mpr spares⟩
  · intro log request fault inv _ taken
    exact ((call_bounded inv.1 inv.2 request).of_error taken).1
  · intro log request next inv grows taken bounded
    exact grows (((call_bounded inv.1 inv.2 request).of_ok taken).2.mp bounded)
  · intro log request fault inv grows taken _
    exact grows ((call_bounded inv.1 inv.2 request).of_error taken).2

/-- A message that fills a buffer. -/
@[irreducible] def fullLine : List UInt8 := List.replicate (kLargeBufferSize - 1) 97

theorem fullLine_length : fullLine.length = kLargeBufferSize - 1 := by
  unfold fullLine
  exact List.length_replicate

theorem fullLine_fits : fullLine.length < (FixedBuffer.empty : LargeBuffer).avail := by
  rw [fullLine_length, FixedBuffer.avail, FixedBuffer.empty_contents, List.length_nil]
  unfold kLargeBufferSize
  omega

theorem fullLine_fills : (FixedBuffer.empty.append fullLine : LargeBuffer).avail = 1 := by
  rw [FixedBuffer.avail, FixedBuffer.append_contents _ _ fullLine_fits, FixedBuffer.empty_contents,
    List.nil_append, fullLine_length]
  unfold kLargeBufferSize
  omega

/-- Each message of this length fills a buffer, so that the next one hands it on. -/
theorem run_fullLines (count : Nat) {log : AsyncLogging} {current : LargeBuffer}
    (rotating : log.Rotating) (held : log.currentBuffer = some current) (full : current.avail = 1) :
    ∃ after, run call log (List.replicate count (.append fullLine)) = .ok after ∧
      after.buffers.length = log.buffers.length + count := by
  induction count generalizing log current with
  | zero => exact ⟨log, rfl, rfl⟩
  | succ count ih =>
      obtain ⟨other, same, returned⟩ := rotating.append_eq fullLine
      obtain rfl := Option.some.inj (held.symm.trans same)
      have long : ¬ fullLine.length < current.avail := by
        rw [full, fullLine_length]
        unfold kLargeBufferSize
        omega
      rw [if_neg long] at returned
      obtain ⟨after, reached, more⟩ := ih
        (rotating.swapped (log.appended ++ [fullLine]) current (FixedBuffer.empty.append fullLine))
        rfl fullLine_fills
      refine ⟨after, ?_, ?_⟩
      · rw [List.replicate_succ]
        exact (run_cons_ok_iff _ _ _ _).mpr ⟨_, returned, reached⟩
      · rw [more, List.length_append, List.length_singleton]
        omega

/-- While the backend has not come to collect, eighteen messages leave seventeen buffers
waiting. -/
theorem fullLines_exceed :
    ¬ Always call Bounded (fun fault => fault = .notEnabled) create
      (List.replicate 18 (.append fullLine)) := by
  intro always
  obtain ⟨current, held, returned⟩ := create_rotating.append_eq fullLine
  obtain rfl : FixedBuffer.empty = current := Option.some.inj held
  rw [if_pos fullLine_fits] at returned
  obtain ⟨after, reached, more⟩ := run_fullLines 17
    (create_rotating.filled (create.appended ++ [fullLine]) (FixedBuffer.empty.append fullLine))
    rfl fullLine_fills
  have whole : run call create (List.replicate 18 (.append fullLine)) = .ok after := by
    rw [List.replicate_succ]
    exact (run_cons_ok_iff _ _ _ _).mpr ⟨_, returned, reached⟩
  have bounded : after.buffers.length ≤ 16 := always.target whole
  have none : create.buffers.length = 0 := rfl
  dsimp only at more
  omega

end AsyncLogging

end KamaWebserver
