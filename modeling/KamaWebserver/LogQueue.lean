import KamaWebserver.LogRotation
import KamaWebserver.Library.Fifo
import KamaWebserver.Library.Transition

set_option autoImplicit false

namespace KamaWebserver.AsyncLogging

open Outcome Transition

def contents : BufferPtr → List UInt8
  | some buffer => buffer.contents
  | none => []

/-- The bytes of a queue of buffers. -/
def bytes (buffers : List BufferPtr) : List UInt8 := buffers.flatMap contents

/-- The part of the batch that is not written yet. -/
def unwritten (log : AsyncLogging) : List BufferPtr :=
  match log.pc with
  | .write index => log.buffersToWrite.drop index
  | _ => []

/-- What the backend has written or holds in its batch. -/
def taken (log : AsyncLogging) : List UInt8 := log.output ++ bytes log.unwritten

/-- What it has not collected. -/
def uncollected (log : AsyncLogging) : List UInt8 :=
  bytes log.buffers ++ contents log.currentBuffer

/-- The logger as a byte queue from the callers of `append` to the backend. -/
structure Represents (log : AsyncLogging) (queue : Fifo UInt8) : Prop where
  consumed : log.taken = queue.consumed
  content : log.uncollected = queue.content
  received : log.appended.flatten = queue.received

/-- An `append` puts its bytes into the queue and the critical section of the backend
takes all there is. -/
def queueAfter (log : AsyncLogging) (queue : Fifo UInt8) : LogEvent → Fifo UInt8
  | .append logline => queue.push logline.bytes
  | .backend => if log.Collects then queue.pop queue.content.length else queue
  | .start => queue
  | .stop => queue

theorem bytes_concat (buffers : List BufferPtr) (buffer : LargeBuffer) :
    bytes (buffers ++ [some buffer]) = bytes buffers ++ buffer.contents := by
  simp [bytes, contents]

variable {log log' : AsyncLogging} {event : LogEvent} {queue : Fifo UInt8}

theorem Represents.of_eq (rep : log.Represents queue) (taken : log'.taken = log.taken)
    (uncollected : log'.uncollected = log.uncollected) (appended : log'.appended = log.appended) :
    log'.Represents queue :=
  ⟨taken.trans rep.consumed, uncollected.trans rep.content, appended ▸ rep.received⟩

theorem Represents.keep (rep : log.Represents queue) (quiet : ¬ log.Collects)
    (taken : log'.taken = log.taken) (uncollected : log'.uncollected = log.uncollected)
    (appended : log'.appended = log.appended) :
    log'.Represents (log.queueAfter queue .backend) := by
  rw [queueAfter, if_neg quiet]
  exact rep.of_eq taken uncollected appended

theorem Represents.push (rep : log.Represents queue) (logline : LogLine)
    (taken : log'.taken = log.taken)
    (uncollected : log'.uncollected = log.uncollected ++ logline.bytes)
    (appended : log'.appended = log.appended ++ [logline.bytes]) :
    log'.Represents (queue.push logline.bytes) := by
  refine ⟨taken.trans rep.consumed, ?_, ?_⟩
  · rw [uncollected, rep.content, Fifo.push_content]
  · rw [appended, List.flatten_append, rep.received, Fifo.push_received]
    simp

/-- Every event does to the logger what `queueAfter` does to the queue. -/
theorem Stepped.represents (stepped : Stepped log event log') (rep : log.Represents queue) :
    log'.Represents (log.queueAfter queue event) := by
  cases stepped with
  | @filled logline current held room =>
      refine rep.push logline rfl ?_ rfl
      simp only [uncollected, contents, held]
      rw [FixedBuffer.append_contents _ _ room, List.append_assoc]
  | @swapped logline current held full =>
      refine rep.push logline rfl ?_ rfl
      have fits : logline.bytes.length < (FixedBuffer.empty : LargeBuffer).avail := logline.short
      simp only [uncollected, contents, held]
      rw [FixedBuffer.append_contents _ _ fits, bytes_concat, FixedBuffer.empty_contents,
        List.nil_append]
  | started here =>
      refine rep.of_eq ?_ rfl rfl
      simp only [taken, unwritten, here]
  | stopped => exact rep.of_eq rfl rfl rfl
  | tested here =>
      have quiet : ¬ log.Collects := by simp [Collects, here]
      refine rep.keep quiet ?_ rfl rfl
      cases running : log.running <;> simp [taken, unwritten, here]
  | waits here drained =>
      have quiet : ¬ log.Collects := by simp [Collects, here, drained]
      refine rep.keep quiet ?_ rfl rfl
      simp only [taken, unwritten, here]
  | @collected current newbuffer2 here held given =>
      rw [queueAfter, if_pos here]
      have before : log.taken = log.output := by
        rcases here with here | ⟨here, -⟩ <;> simp [taken, unwritten, here, bytes]
      refine ⟨?_, ?_, rep.received⟩
      · rw [Fifo.pop_consumed, ← rep.consumed, ← rep.content, List.take_length]
        rw [before]
        simp only [taken, uncollected, unwritten, held, List.drop_zero]
        rw [bytes_concat]
        rfl
      · rw [Fifo.pop_content, List.drop_length]
        rfl
  | @wrote index buffer here next =>
      have quiet : ¬ log.Collects := by simp [Collects, here]
      refine rep.keep quiet ?_ rfl rfl
      obtain ⟨inside, get⟩ := List.getElem?_eq_some_iff.mp next
      simp only [taken, unwritten, here]
      rw [List.drop_eq_getElem_cons inside, get]
      simp [bytes, contents]
  | @finished index here all =>
      have quiet : ¬ log.Collects := by simp [Collects, here]
      refine rep.keep quiet ?_ rfl rfl
      simp only [taken, unwritten, here]
      rw [List.drop_of_length_le all]
  | recycled here =>
      have quiet : ¬ log.Collects := by simp [Collects, here]
      refine rep.keep quiet ?_ rfl rfl
      simp only [taken, unwritten, here]

/-- What holds between any two steps. -/
def Tracked (log : AsyncLogging) : Prop := log.Rotating ∧ ∃ queue, log.Represents queue

theorem create_tracked : create.Tracked := ⟨create_rotating, Fifo.empty, rfl, rfl, rfl⟩

theorem Stepped.tracked (stepped : Stepped log event log') (tracked : log.Tracked) :
    log'.Tracked := by
  obtain ⟨rotating, queue, rep⟩ := tracked
  exact ⟨stepped.rotating rotating, _, stepped.represents rep⟩

theorem tracked_of_run {events : List LogEvent} (reached : run step create events = .ok log) :
    log.Tracked := by
  refine Reachable.preserves Tracked ?_ create_tracked ⟨events, reached⟩
  intro log event next tracked taken
  exact ((tracked.1.stepped event).of_ok taken).tracked tracked

/-- The message an event hands to `append`. -/
def message : LogEvent → Option (List UInt8)
  | .append logline => some logline.bytes
  | _ => none

theorem Stepped.appended_eq (stepped : Stepped log event log') :
    log'.appended = log.appended ++ (message event).toList := by
  cases stepped with
  | filled => rfl
  | swapped => rfl
  | _ => exact (List.append_nil _).symm

/-- `appended` holds the messages of the `append` events of the run, whatever branch each
of them took. -/
theorem appended_of_run {events : List LogEvent} (reached : run step create events = .ok log) :
    log.appended = events.filterMap message := by
  have grows : ∀ (events : List LogEvent) (first : AsyncLogging), first.Tracked →
      run step first events = .ok log →
      log.appended = first.appended ++ events.filterMap message := by
    intro events
    induction events with
    | nil =>
        intro first _ ends
        cases ends
        exact (List.append_nil _).symm
    | cons event events ih =>
        intro first tracked ends
        obtain ⟨next, taken, rest⟩ := (run_cons_ok_iff _ _ _ _).mp ends
        have stepped := (tracked.1.stepped event).of_ok taken
        rw [ih next (stepped.tracked tracked) rest, stepped.appended_eq, List.append_assoc]
        cases calls : message event <;> simp [calls]
  exact grows events create create_tracked reached

/-- In every interleaving the written bytes, the rest of the batch, the queued buffers
and the current one hold the messages in the order of their critical sections. -/
theorem no_line_lost (events : List LogEvent) :
    Always step
      (fun log => log.output ++ bytes log.unwritten ++ bytes log.buffers ++
        contents log.currentBuffer = log.appended.flatten)
      (fun fault => fault = .notEnabled) create events := by
  refine always_of_guarded Tracked ?_ ?_ create_tracked (guarded_true create events)
  · rintro log ⟨-, queue, rep⟩
    have balanced := queue.balanced
    rw [← rep.consumed, ← rep.content, ← rep.received] at balanced
    rw [← balanced, taken, uncollected]
    simp only [List.append_assoc]
  · intro log event tracked _
    exact (tracked.1.stepped event).mono fun log' stepped => stepped.tracked tracked

end KamaWebserver.AsyncLogging
