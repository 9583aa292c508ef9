import KamaWebserver.AsyncLogging
import KamaWebserver.Library.Outcome

set_option autoImplicit false

namespace KamaWebserver.AsyncLogging

open Outcome

/-- The two spare buffers are at hand and the batch is empty. -/
def SparesReady (log : AsyncLogging) : Prop :=
  log.newbuffer1 = some .empty ∧ log.newbuffer2 = some .empty ∧ log.buffersToWrite = []

/-- The batch holds a buffer for every spare that was handed out. -/
def SparesGiven (log : AsyncLogging) : Prop :=
  log.newbuffer1 = none ∧
    (log.newbuffer2 = some .empty ∧ 1 ≤ log.buffersToWrite.length ∨
      log.newbuffer2 = none ∧ 2 ≤ log.buffersToWrite.length)

def BackendHolds (log : AsyncLogging) : Prop :=
  match log.pc with
  | .idle => log.buffersToWrite = []
  | .write _ => log.SparesGiven
  | .recycle => log.SparesGiven
  | _ => log.SparesReady

/-- Where the buffers are: there is always a current one, the next one is empty unless it
became the current one since the last collection, and no null pointer is queued. -/
structure Rotating (log : AsyncLogging) : Prop where
  current : log.currentBuffer.isSome
  next : log.nextBuffer = some .empty ∨ log.nextBuffer = none ∧ log.buffers ≠ []
  buffers : ∀ buffer ∈ log.buffers, buffer.isSome
  batch : ∀ buffer ∈ log.buffersToWrite, buffer.isSome
  backend : log.BackendHolds

/-- The next step of the backend is its critical section. -/
def Collects (log : AsyncLogging) : Prop :=
  log.pc = .waiting ∨ log.pc = .lock ∧ log.buffers ≠ []

instance (log : AsyncLogging) : Decidable log.Collects :=
  inferInstanceAs (Decidable (_ ∨ _))

/-- What each event does, by its cases. -/
inductive Stepped (log : AsyncLogging) : LogEvent → AsyncLogging → Prop
  | filled {logline : LogLine} {current : LargeBuffer} (held : log.currentBuffer = some current)
      (room : logline.bytes.length < current.avail) :
      Stepped log (.append logline) { log with
        appended := log.appended ++ [logline.bytes]
        currentBuffer := some (current.append logline.bytes) }
  | swapped {logline : LogLine} {current : LargeBuffer} (held : log.currentBuffer = some current)
      (full : ¬ logline.bytes.length < current.avail) :
      Stepped log (.append logline) { log with
        appended := log.appended ++ [logline.bytes]
        buffers := log.buffers ++ [some current]
        nextBuffer := none
        currentBuffer := some (FixedBuffer.empty.append logline.bytes) }
  | started (here : log.pc = .idle) :
      Stepped log .start { log with
        running := true
        newbuffer1 := some .empty
        newbuffer2 := some .empty
        pc := .test }
  | stopped : Stepped log .stop { log with running := false }
  | tested (here : log.pc = .test) :
      Stepped log .backend { log with pc := if log.running then .lock else .done }
  | waits (here : log.pc = .lock) (drained : log.buffers = []) :
      Stepped log .backend { log with pc := .waiting }
  | collected {current : LargeBuffer} {newbuffer2 : BufferPtr}
      (here : log.Collects) (held : log.currentBuffer = some current)
      (given : newbuffer2 = some .empty ∨ newbuffer2 = none ∧ log.buffers ≠ []) :
      Stepped log .backend { log with
        buffers := []
        currentBuffer := some .empty
        nextBuffer := some .empty
        newbuffer1 := none
        newbuffer2
        buffersToWrite := log.buffers ++ [some current]
        pc := .write 0 }
  | wrote {index : Nat} {buffer : LargeBuffer} (here : log.pc = .write index)
      (next : log.buffersToWrite[index]? = some (some buffer)) :
      Stepped log .backend { log with
        output := log.output ++ buffer.contents
        pc := .write (index + 1) }
  | finished {index : Nat} (here : log.pc = .write index)
      (all : log.buffersToWrite.length ≤ index) : Stepped log .backend { log with pc := .recycle }
  | recycled (here : log.pc = .recycle) :
      Stepped log .backend { log with
        newbuffer1 := some .empty
        newbuffer2 := some .empty
        buffersToWrite := []
        pc := .test }

variable {log log' : AsyncLogging} {event : LogEvent}

/-- An `append` writes to the current buffer, or hands it on and writes to an empty one. -/
theorem Rotating.append_eq (rotating : log.Rotating) (logline : List UInt8) :
    ∃ current, log.currentBuffer = some current ∧
      log.append logline = .ok (if logline.length < current.avail then
        { log with
          appended := log.appended ++ [logline]
          currentBuffer := some (current.append logline) }
      else
        { log with
          appended := log.appended ++ [logline]
          buffers := log.buffers ++ [some current]
          nextBuffer := none
          currentBuffer := some (FixedBuffer.empty.append logline) }) := by
  obtain ⟨current, held⟩ := Option.isSome_iff_exists.mp rotating.current
  refine ⟨current, held, ?_⟩
  simp only [AsyncLogging.append, held, deref, bind_ok_iff]
  refine ⟨current, rfl, ?_⟩
  by_cases room : logline.length < current.avail
  · simp only [if_pos room]
    rfl
  · simp only [if_neg room]
    rcases rotating.next with next | ⟨next, -⟩
    · rw [next]
      rfl
    · rw [next]
      rfl

theorem Rotating.append (rotating : log.Rotating) (logline : LogLine) :
    ∃ log', log.append logline.bytes = .ok log' ∧ Stepped log (.append logline) log' := by
  obtain ⟨current, held, returned⟩ := rotating.append_eq logline.bytes
  refine ⟨_, returned, ?_⟩
  by_cases room : logline.bytes.length < current.avail
  · rw [if_pos room]
    exact .filled held room
  · rw [if_neg room]
    exact .swapped held room

theorem refill_ready (written : List BufferPtr) :
    refill (some .empty) written = .ok (some .empty, written) := rfl

theorem refill_given {written : List BufferPtr} (present : written ≠ [])
    (filled : ∀ buffer ∈ written, buffer.isSome) :
    refill none written = .ok (some .empty, written.dropLast) := by
  obtain ⟨back, last⟩ := Option.isSome_iff_exists.mp
    (filled _ (List.getLast_mem present))
  simp only [refill, List.getLast?_eq_some_getLast present, last]
  rfl

/-- `recycle` goes on with the first two buffers of the batch. -/
theorem resize_eq (written : List BufferPtr) :
    (if 2 < written.length then written.take 2 else written) = written.take 2 := by
  split
  · rfl
  · rw [List.take_of_length_le (by omega)]

theorem SparesGiven.first_back (given : log.SparesGiven) : log.buffersToWrite.take 2 ≠ [] := by
  rw [← List.length_pos_iff, List.length_take]
  rcases given.2 with ⟨-, length⟩ | ⟨-, length⟩ <;> omega

/-- A second spare is only missing when the next buffer was missing at the collection, and then
a full buffer was queued beside the current one. -/
theorem SparesGiven.second_back (given : log.SparesGiven) (missing : log.newbuffer2 = none) :
    (log.buffersToWrite.take 2).dropLast ≠ [] := by
  rcases given.2 with ⟨there, -⟩ | ⟨-, length⟩
  · rw [missing] at there
    cases there
  · rw [← List.length_pos_iff, List.length_dropLast, List.length_take]
    omega

theorem SparesGiven.recycle (given : log.SparesGiven)
    (filled : ∀ buffer ∈ log.buffersToWrite, buffer.isSome) :
    log.recycle = .ok { log with
      newbuffer1 := some .empty
      newbuffer2 := some .empty
      buffersToWrite := []
      pc := .test } := by
  have kept : ∀ buffer ∈ log.buffersToWrite.take 2, buffer.isSome := fun buffer inside =>
    filled buffer (List.mem_of_mem_take inside)
  have dropped : ∀ buffer ∈ (log.buffersToWrite.take 2).dropLast, buffer.isSome :=
    fun buffer inside => kept buffer (List.dropLast_subset _ inside)
  have first := refill_given given.first_back kept
  rcases given.2 with ⟨second, -⟩ | ⟨second, -⟩
  · simp only [AsyncLogging.recycle, resize_eq, given.1, second, bind_ok_iff]
    exact ⟨_, first, _, refill_ready _, rfl⟩
  · simp only [AsyncLogging.recycle, resize_eq, given.1, second, bind_ok_iff]
    exact ⟨_, first, _, refill_given (given.second_back second) dropped, rfl⟩

theorem SparesReady.collect (ready : log.SparesReady) (rotating : log.Rotating)
    (here : log.Collects) : Stepped log .backend log.collect := by
  obtain ⟨current, held⟩ := Option.isSome_iff_exists.mp rotating.current
  rcases rotating.next with next | ⟨next, full⟩
  · have result := Stepped.collected here held (Or.inl rfl)
    simpa only [AsyncLogging.collect, held, next, ready.1, ready.2.1, ready.2.2]
      using result
  · have result := Stepped.collected here held (Or.inr ⟨rfl, full⟩)
    simpa only [AsyncLogging.collect, held, next, ready.1, ready.2.1, ready.2.2]
      using result

/-- No step goes through a null pointer or takes from an empty batch: only an event that
is not enabled fails. -/
theorem Rotating.stepped (rotating : log.Rotating) (event : LogEvent) :
    Spec (fun fault => fault = .notEnabled) (Stepped log event) (log.step event) := by
  have holds := rotating.backend
  unfold BackendHolds at holds
  cases event with
  | append logline =>
      obtain ⟨log', returned, stepped⟩ := rotating.append logline
      rw [step, returned]
      exact stepped
  | start =>
      rw [step, AsyncLogging.start]
      split
      · rename_i here
        exact .started here
      · exact rfl
  | stop => exact .stopped
  | backend =>
      rw [step, AsyncLogging.backend]
      split
      · exact rfl
      · rename_i here
        exact .tested here
      · rename_i here
        rw [here] at holds
        by_cases drained : log.buffers = []
        · rw [if_pos (List.isEmpty_iff.mpr drained)]
          exact .waits here drained
        · rw [if_neg fun empty => drained (List.isEmpty_iff.mp empty)]
          exact SparesReady.collect holds rotating (Or.inr ⟨here, drained⟩)
      · rename_i here
        rw [here] at holds
        exact SparesReady.collect holds rotating (Or.inl here)
      · rename_i index here
        rw [writeNext]
        cases next : log.buffersToWrite[index]? with
        | none => exact .finished here (List.getElem?_eq_none_iff.mp next)
        | some pointer =>
            obtain ⟨buffer, held⟩ := Option.isSome_iff_exists.mp
              (rotating.batch pointer (List.mem_of_getElem? next))
            rw [held] at next ⊢
            exact .wrote here next
      · rename_i here
        rw [here] at holds
        rw [SparesGiven.recycle holds rotating.batch]
        exact .recycled here
      · exact rfl

/-- The current buffer may be written. -/
theorem Rotating.filled (rotating : log.Rotating) (appended : List (List UInt8))
    (current : LargeBuffer) :
    Rotating { log with appended, currentBuffer := some current } :=
  ⟨rfl, rotating.next, rotating.buffers, rotating.batch, rotating.backend⟩

/-- A full buffer may be handed on while the next one, or a new one, takes its place. -/
theorem Rotating.swapped (rotating : log.Rotating) (appended : List (List UInt8))
    (full current : LargeBuffer) :
    Rotating { log with
      appended
      buffers := log.buffers ++ [some full]
      nextBuffer := none
      currentBuffer := some current } := by
  refine ⟨rfl, Or.inr ⟨rfl, List.concat_ne_nil _ _⟩, ?_, rotating.batch, rotating.backend⟩
  intro buffer inside
  rcases List.mem_append.mp inside with inside | last
  · exact rotating.buffers buffer inside
  · rw [List.mem_singleton.mp last]
    rfl

theorem Stepped.rotating (stepped : Stepped log event log') (rotating : log.Rotating) :
    log'.Rotating := by
  obtain ⟨current, next, buffers, batch, holds⟩ := id rotating
  unfold BackendHolds at holds
  cases stepped with
  | filled held room => exact rotating.filled _ _
  | swapped held full => exact rotating.swapped _ _ _
  | started here =>
      rw [here] at holds
      exact ⟨current, next, buffers, batch, And.intro rfl (And.intro rfl holds)⟩
  | stopped => exact ⟨current, next, buffers, batch, holds⟩
  | tested here =>
      rw [here] at holds
      refine ⟨current, next, buffers, batch, ?_⟩
      cases running : log.running with
      | true => exact holds
      | false => exact holds
  | waits here drained =>
      rw [here] at holds
      exact ⟨current, next, buffers, batch, holds⟩
  | @collected current newbuffer2 here held given =>
      refine ⟨rfl, Or.inl rfl, List.forall_mem_nil _, ?_, And.intro rfl ?_⟩
      · intro buffer inside
        rcases List.mem_append.mp inside with inside | last
        · exact buffers buffer inside
        · rw [List.mem_singleton.mp last]
          rfl
      · show _ ∧ 1 ≤ (log.buffers ++ [some current]).length ∨
          _ ∧ 2 ≤ (log.buffers ++ [some current]).length
        rw [List.length_append, List.length_singleton]
        rcases given with kept | ⟨gone, full⟩
        · exact Or.inl ⟨kept, by omega⟩
        · have length := List.length_pos_iff.mpr full
          exact Or.inr ⟨gone, by omega⟩
  | wrote here found =>
      rw [here] at holds
      exact ⟨current, next, buffers, batch, holds⟩
  | finished here all =>
      rw [here] at holds
      exact ⟨current, next, buffers, batch, holds⟩
  | recycled here =>
      exact ⟨current, next, buffers, List.forall_mem_nil _,
        And.intro rfl (And.intro rfl rfl)⟩

theorem create_rotating : create.Rotating :=
  ⟨rfl, Or.inl rfl, List.forall_mem_nil _, List.forall_mem_nil _, rfl⟩

end KamaWebserver.AsyncLogging
