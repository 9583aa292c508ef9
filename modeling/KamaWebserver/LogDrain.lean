import KamaWebserver.LogQueue

set_option autoImplicit false

namespace KamaWebserver.AsyncLogging

open Outcome Transition

/-- With `running_` cleared, the first `count` bytes of the queue still reach the file:
the backend has taken them or its critical section is still to come. -/
def Reaches (count : Nat) (log : AsyncLogging) : Prop :=
  log.pc = .lock ∨ log.pc = .waiting ∨ count ≤ log.taken.length

/-- A logger between `stop` and the return of `threadFunc`. -/
structure Stopping (stopped log : AsyncLogging) : Prop where
  tracked : log.Tracked
  halted : log.running = false
  started : log.pc ≠ .idle
  earlier : stopped.appended <+: log.appended

variable {stopped log log' : AsyncLogging} {event : LogEvent}

theorem Represents.taken_prefix {queue : Fifo UInt8} (rep : log.Represents queue) :
    log.taken <+: log.appended.flatten := by
  rw [rep.consumed, rep.received]
  exact queue.consumed_prefix

theorem Stepped.stopping (stepped : Stepped log event log') (stopping : Stopping stopped log) :
    Stopping stopped log' := by
  obtain ⟨tracked, halted, started, earlier⟩ := stopping
  refine ⟨stepped.tracked tracked, ?_, ?_, ?_⟩
  · cases stepped with
    | started here => exact absurd here started
    | stopped => rfl
    | _ => exact halted
  · cases stepped with
    | filled held room => exact started
    | swapped held full => exact started
    | started here => exact absurd here started
    | stopped => exact started
    | tested here =>
        rw [halted]
        simp
    | _ => simp
  · cases stepped with
    | filled held room => exact earlier.trans (List.prefix_append _ _)
    | swapped held full => exact earlier.trans (List.prefix_append _ _)
    | _ => exact earlier

theorem reaches_iff_taken {count : Nat} (busy : log.pc ≠ .lock ∧ log.pc ≠ .waiting) :
    Reaches count log ↔ count ≤ log.taken.length := by
  simp [Reaches, busy.1, busy.2]

/-- No step after `stop` changes which bytes reach the file. -/
theorem Stepped.reaches_iff (stepped : Stepped log event log') (stopping : Stopping stopped log)
    {count : Nat} (bound : count ≤ stopped.appended.flatten.length) :
    Reaches count log' ↔ Reaches count log := by
  obtain ⟨⟨-, queue, rep⟩, halted, started, earlier⟩ := stopping
  have rep' := stepped.represents rep
  have quiet : event = .backend → ¬ log.Collects → (log.pc ≠ .lock ∧ log.pc ≠ .waiting) →
      (log'.pc ≠ .lock ∧ log'.pc ≠ .waiting) → (Reaches count log' ↔ Reaches count log) := by
    intro backend quiet before after
    subst backend
    rw [reaches_iff_taken before, reaches_iff_taken after, rep'.consumed, queueAfter,
      if_neg quiet, rep.consumed]
  cases stepped with
  | filled held room => exact Iff.rfl
  | swapped held full => exact Iff.rfl
  | started here => exact absurd here started
  | stopped => exact Iff.rfl
  | tested here =>
      refine quiet rfl (by simp [Collects, here]) (by simp [here]) ?_
      rw [halted]
      simp
  | waits here drained => simp [Reaches, here]
  | @collected current newbuffer2 here held given =>
      have before : Reaches count log := by
        rcases here with here | ⟨here, -⟩
        · exact Or.inr (Or.inl here)
        · exact Or.inl here
      refine iff_of_true (Or.inr (Or.inr ?_)) before
      have longer := (earlier.flatten).length_le
      rw [rep'.consumed, queueAfter, if_pos here, Fifo.pop_consumed, List.take_length,
        queue.balanced, ← rep.received]
      omega
  | wrote here next => exact quiet rfl (by simp [Collects, here]) (by simp [here]) (by simp)
  | finished here all => exact quiet rfl (by simp [Collects, here]) (by simp [here]) (by simp)
  | recycled here => exact quiet rfl (by simp [Collects, here]) (by simp [here]) (by simp)

theorem taken_of_done (returned : log.pc = .done) : log.taken = log.output := by
  simp [taken, unwritten, returned, bytes]

/-- At the return of `threadFunc` the file holds the messages of `stopped` exactly when
it holds as many bytes. -/
theorem Stopping.drained_iff (stopping : Stopping stopped log) (returned : log.pc = .done) :
    stopped.appended.flatten <+: log.output ↔ Reaches stopped.appended.flatten.length log := by
  obtain ⟨⟨-, queue, rep⟩, -, -, earlier⟩ := stopping
  have written := rep.taken_prefix
  rw [taken_of_done returned] at written
  unfold Reaches
  rw [returned, taken_of_done returned]
  constructor
  · intro inside
    exact Or.inr (Or.inr inside.length_le)
  · rintro (here | here | long)
    · cases here
    · cases here
    · exact List.prefix_of_prefix_length_le earlier.flatten written long

theorem Represents.reaches_iff {queue : Fifo UInt8} (rep : log.Represents queue) :
    Reaches log.appended.flatten.length log ↔
      log.pc = .lock ∨ log.pc = .waiting ∨ log.uncollected = [] := by
  have total : log.taken.length + log.uncollected.length = log.appended.flatten.length := by
    rw [rep.consumed, rep.content, rep.received, ← queue.balanced, List.length_append]
  have none_left : log.uncollected = [] ↔ log.appended.flatten.length ≤ log.taken.length := by
    rw [← List.length_eq_zero_iff]
    omega
  rw [none_left]
  exact Iff.rfl

/-- The messages appended before `stop` are in the file when `threadFunc` returns exactly
when its critical section was still to come at `stop`, or nothing was left to collect. -/
theorem stop_drains_iff (before after : List LogEvent) (log final : AsyncLogging)
    (reached : run step create before = .ok log) (started : log.pc ≠ .idle)
    (ends : run step log (.stop :: after) = .ok final) (returned : final.pc = .done) :
    log.appended.flatten <+: final.output ↔
      log.pc = .lock ∨ log.pc = .waiting ∨ log.uncollected = [] := by
  have tracked := tracked_of_run reached
  obtain ⟨queue, rep⟩ := tracked.2
  have stopping : Stopping log log.stop :=
    ⟨Stepped.stopped.tracked tracked, rfl, started, List.prefix_rfl⟩
  have last : Stopping log final ∧
      (Reaches log.appended.flatten.length final ↔ Reaches log.appended.flatten.length log) := by
    refine Reachable.preserves (fun current => Stopping log current ∧
      (Reaches log.appended.flatten.length current ↔ Reaches log.appended.flatten.length log))
      ?_ ⟨stopping, Iff.rfl⟩ ⟨after, ends⟩
    intro current event next ⟨stopping, same⟩ taken
    have stepped := (stopping.tracked.1.stepped event).of_ok taken
    exact ⟨stepped.stopping stopping, (stepped.reaches_iff stopping (Nat.le_refl _)).trans same⟩
  rw [last.1.drained_iff returned, last.2, rep.reaches_iff]

def shortLine : LogLine := ⟨[97], by decide⟩

/-- A message appended while the backend waits is collected after `stop`. -/
theorem stop_drains_waiting : ∃ log final,
    run step create [.start, .backend, .backend, .append shortLine] = .ok log ∧
      run step log [.stop, .backend, .backend, .backend, .backend, .backend] = .ok final ∧
      log.appended.flatten <+: final.output := by
  obtain ⟨log, reached, rest⟩ := (bind_ok_iff _ _ _).mp
    (show (run step create [.start, .backend, .backend, .append shortLine] >>= fun log =>
      (run step log [.stop, .backend, .backend, .backend, .backend, .backend]).map fun final =>
        (log.pc, final.pc)) = .ok (.waiting, .done) by decide +kernel)
  obtain ⟨final, ends, pcs⟩ := (map_ok_iff _ _ _).mp rest
  obtain ⟨waits, returned⟩ := Prod.mk.inj pcs
  have started : log.pc ≠ .idle := by
    rw [waits]
    decide
  exact ⟨log, final, reached, ends,
    (stop_drains_iff _ _ log final reached started ends returned).mpr (Or.inr (Or.inl waits))⟩

/-- One appended while the backend writes its batch is not. -/
theorem stop_loses_appended :
    ¬ ∀ (before after : List LogEvent) (log final : AsyncLogging),
      run step create before = .ok log → log.pc ≠ .idle →
      run step log (.stop :: after) = .ok final → final.pc = .done →
      log.appended.flatten <+: final.output := by
  intro drains
  obtain ⟨log, reached, rest⟩ := (bind_ok_iff _ _ _).mp
    (show (run step create [.start, .backend, .backend, .backend, .append shortLine] >>= fun log =>
      (run step log [.stop, .backend, .backend, .backend, .backend]).map fun final =>
        (log.pc, log.appended, final.pc, final.output)) =
          .ok (.write 0, [[97]], .done, []) by decide +kernel)
  obtain ⟨final, ends, facts⟩ := (map_ok_iff _ _ _).mp rest
  simp only [Prod.mk.injEq] at facts
  obtain ⟨writes, appended, returned, output⟩ := facts
  have started : log.pc ≠ .idle := by
    rw [writes]
    decide
  have drained := drains _ _ log final reached started ends returned
  rw [appended, output] at drained
  exact absurd drained.length_le (by decide)

end KamaWebserver.AsyncLogging
