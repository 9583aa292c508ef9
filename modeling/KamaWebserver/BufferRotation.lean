import KamaWebserver.Library.Noted
import KamaWebserver.LogBacklog

set_option autoImplicit false

namespace KamaWebserver

open Outcome Noted

/-- What `append` and `threadFunc` do with the buffers they pass around, each with the pointers
it finds: `currentBuffer_` is used, `currentBuffer_` or `nextBuffer_` was assigned, an iteration
begins, `back` and `pop_back` are called on `buffersToWrite`. -/
inductive BufferUse
  | current (currentBuffer : BufferPtr)
  | install (buffer : BufferPtr)
  | iterate (newbuffer1 newbuffer2 : BufferPtr)
  | back (buffersToWrite : List BufferPtr)

def BufferUse.Safe : BufferUse → Prop
  | .current currentBuffer => currentBuffer.isSome
  | .install buffer => buffer = some .empty
  | .iterate newbuffer1 newbuffer2 => newbuffer1 = some .empty ∧ newbuffer2 = some .empty
  | .back buffersToWrite => buffersToWrite ≠ []

namespace AsyncLogging

/-- The constructor, with its uses noted. -/
def createNoted : Noted BufferUse Fault AsyncLogging := do
  note (.install create.currentBuffer)
  note (.install create.nextBuffer)
  return create

/-- `append` with its uses noted, the move into `buffers_` among them. -/
def appendNoted (log : AsyncLogging) (logline : List UInt8) :
    Noted BufferUse Fault AsyncLogging := do
  note (.current log.currentBuffer)
  let current ← lift (deref log.currentBuffer)
  let log := { log with appended := log.appended ++ [logline] }
  if logline.length < current.avail then
    note (.current log.currentBuffer)
    return { log with currentBuffer := some (current.append logline) }
  else
    note (.current log.currentBuffer)
    let log := { log with buffers := log.buffers ++ [log.currentBuffer], currentBuffer := none }
    let log := match log.nextBuffer with
      | some next => { log with currentBuffer := some next, nextBuffer := none }
      | none => { log with currentBuffer := some .empty }
    note (.install log.currentBuffer)
    note (.current log.currentBuffer)
    let current ← lift (deref log.currentBuffer)
    return { log with currentBuffer := some (current.append logline) }

/-- `collect` with its uses noted. -/
def collectNoted (log : AsyncLogging) : Noted BufferUse Fault AsyncLogging := do
  note (.current log.currentBuffer)
  let log := { log with
    buffers := log.buffers ++ [log.currentBuffer]
    currentBuffer := log.newbuffer1
    newbuffer1 := none }
  note (.install log.currentBuffer)
  let log ← match log.nextBuffer with
    | some _ => pure log
    | none => do
        let log := { log with nextBuffer := log.newbuffer2, newbuffer2 := none }
        note (.install log.nextBuffer)
        pure log
  return { log with buffers := log.buffersToWrite, buffersToWrite := log.buffers, pc := .write 0 }

/-- `refill` with its uses noted. -/
def refillNoted (spare : BufferPtr) (written : List BufferPtr) :
    Noted BufferUse Fault (BufferPtr × List BufferPtr) :=
  match spare with
  | some _ => return (spare, written)
  | none => do
      note (.back written)
      match written.getLast? with
      | some back => do
          let buffer ← lift (deref back)
          return (some buffer.reset, written.dropLast)
      | none => lift (.error .outOfBounds)

/-- `recycle` with its uses noted. -/
def recycleNoted (log : AsyncLogging) : Noted BufferUse Fault AsyncLogging := do
  let written := if 2 < log.buffersToWrite.length then log.buffersToWrite.take 2
    else log.buffersToWrite
  let (newbuffer1, written) ← refillNoted log.newbuffer1 written
  let (newbuffer2, _) ← refillNoted log.newbuffer2 written
  return { log with newbuffer1, newbuffer2, buffersToWrite := [], pc := .test }

/-- The next step of `threadFunc`; its body begins when the loop condition holds. -/
def backendNoted (log : AsyncLogging) : Noted BufferUse Fault AsyncLogging :=
  match log.pc with
  | .test =>
      if log.running then do
        note (.iterate log.newbuffer1 log.newbuffer2)
        return { log with pc := .lock }
      else return { log with pc := .done }
  | .lock => if log.buffers.isEmpty then return { log with pc := .waiting } else log.collectNoted
  | .waiting => log.collectNoted
  | .recycle => log.recycleNoted
  | .idle | .write _ | .done => lift log.backend

def callNoted (log : AsyncLogging) : LogCall → Noted BufferUse Fault AsyncLogging
  | .append logline => log.appendNoted logline
  | .backend => log.backendNoted
  | .start => lift log.start
  | .stop => lift (.ok log.stop)

variable {log : AsyncLogging}

theorem appendNoted_result (log : AsyncLogging) (logline : List UInt8) :
    (log.appendNoted logline).result = log.append logline := by
  simp only [appendNoted, AsyncLogging.append, result_bind, result_note, result_lift]
  cases log.currentBuffer with
  | none => rfl
  | some current =>
      by_cases room : logline.length < current.avail
      · simp only [deref, Except.bind, bind, if_pos room]
        rfl
      · simp only [deref, Except.bind, bind, if_neg room]
        cases log.nextBuffer with
        | none => rfl
        | some next => rfl

theorem collectNoted_result (log : AsyncLogging) : log.collectNoted.result = .ok log.collect := by
  simp only [collectNoted, AsyncLogging.collect, result_bind, result_note]
  cases log.nextBuffer with
  | none => rfl
  | some next => rfl

theorem refillNoted_result (spare : BufferPtr) (written : List BufferPtr) :
    (refillNoted spare written).result = refill spare written := by
  cases spare with
  | some buffer => rfl
  | none =>
      simp only [refillNoted, refill, result_bind, result_note]
      cases written.getLast? with
      | none => rfl
      | some back =>
          cases back with
          | none => rfl
          | some buffer => rfl

theorem recycleNoted_result (log : AsyncLogging) : log.recycleNoted.result = log.recycle := by
  simp only [recycleNoted, AsyncLogging.recycle, result_bind, refillNoted_result]
  rfl

theorem backendNoted_result (log : AsyncLogging) : log.backendNoted.result = log.backend := by
  unfold backendNoted
  cases here : log.pc with
  | test =>
      rw [backend, here]
      cases running : log.running with
      | true => rfl
      | false => rfl
  | lock =>
      rw [backend, here]
      by_cases drained : log.buffers.isEmpty
      · simp only [if_pos drained]
        rfl
      · simp only [if_neg drained]
        exact log.collectNoted_result
  | waiting =>
      rw [backend, here]
      exact log.collectNoted_result
  | recycle =>
      rw [backend, here]
      exact log.recycleNoted_result
  | idle | write | done => rfl

/-- The notes leave the code as it is. -/
theorem callNoted_result (log : AsyncLogging) (request : LogCall) :
    (log.callNoted request).result = log.call request := by
  cases request with
  | append logline => exact log.appendNoted_result logline
  | backend => exact log.backendNoted_result
  | start | stop => rfl

/-- What becomes the current buffer is the next one, which is empty, or a new one. -/
theorem Rotating.append_safe (rotating : log.Rotating) (logline : List UInt8) :
    (log.appendNoted logline).Meets BufferUse.Safe := by
  obtain ⟨current, held⟩ := Option.isSome_iff_exists.mp rotating.current
  have present : BufferUse.Safe (.current (some current)) := rfl
  simp only [appendNoted, held]
  refine Meets.bind ((meets_note_iff _).mpr present) fun _ _ => ?_
  refine Meets.bind (meets_lift _) fun found same => ?_
  cases same
  split
  · exact Meets.bind ((meets_note_iff _).mpr present) fun _ _ => meets_pure _
  · refine Meets.bind ((meets_note_iff _).mpr present) fun _ _ => ?_
    rcases rotating.next with next | ⟨next, -⟩
    all_goals
      simp only [next]
      refine Meets.bind ((meets_note_iff _).mpr rfl) fun _ _ => ?_
      refine Meets.bind ((meets_note_iff _).mpr rfl) fun _ _ => ?_
      exact Meets.bind (meets_lift _) fun _ _ => meets_pure _

theorem SparesReady.collect_safe (ready : log.SparesReady) (rotating : log.Rotating) :
    log.collectNoted.Meets BufferUse.Safe := by
  have present : BufferUse.Safe (.current log.currentBuffer) := rotating.current
  have first : BufferUse.Safe (.install log.newbuffer1) := ready.1
  have second : BufferUse.Safe (.install log.newbuffer2) := ready.2.1
  refine Meets.bind ((meets_note_iff _).mpr present) fun _ _ => ?_
  refine Meets.bind ((meets_note_iff _).mpr first) fun _ _ => ?_
  split
  · exact meets_pure _
  · exact Meets.bind ((meets_note_iff _).mpr second) fun _ _ => meets_pure _

theorem refill_safe {spare : BufferPtr} {written : List BufferPtr}
    (present : spare = none → written ≠ []) :
    (refillNoted spare written).Meets BufferUse.Safe := by
  cases spare with
  | some buffer => exact meets_pure _
  | none =>
      refine Meets.bind ((meets_note_iff _).mpr (present rfl)) fun _ _ => ?_
      split
      · exact Meets.bind (meets_lift _) fun _ _ => meets_pure _
      · exact meets_lift _

theorem SparesGiven.recycle_safe (given : log.SparesGiven)
    (filled : ∀ buffer ∈ log.buffersToWrite, buffer.isSome) :
    log.recycleNoted.Meets BufferUse.Safe := by
  have kept : ∀ buffer ∈ log.buffersToWrite.take 2, buffer.isSome := fun buffer inside =>
    filled buffer (List.mem_of_mem_take inside)
  unfold recycleNoted
  rw [resize_eq]
  refine Meets.bind (refill_safe fun _ => given.first_back) fun first taken => ?_
  rw [refillNoted_result, given.1, refill_given given.first_back kept] at taken
  cases taken
  exact Meets.bind (refill_safe given.second_back) fun second _ => meets_pure _

theorem Rotating.backend_safe (rotating : log.Rotating) :
    log.backendNoted.Meets BufferUse.Safe := by
  have holds := rotating.backend
  unfold BackendHolds at holds
  unfold backendNoted
  cases here : log.pc with
  | test =>
      rw [here] at holds
      dsimp only
      split
      · have begins : BufferUse.Safe (.iterate log.newbuffer1 log.newbuffer2) :=
          And.intro holds.1 holds.2.1
        exact Meets.bind ((meets_note_iff _).mpr begins) fun _ _ => meets_pure _
      · exact meets_pure _
  | lock =>
      rw [here] at holds
      dsimp only
      split
      · exact meets_pure _
      · exact SparesReady.collect_safe holds rotating
  | waiting =>
      rw [here] at holds
      exact SparesReady.collect_safe holds rotating
  | recycle =>
      rw [here] at holds
      exact SparesGiven.recycle_safe holds rotating.batch
  | idle | write | done => exact meets_lift _

theorem Rotating.call_safe (rotating : log.Rotating) (request : LogCall) :
    (log.callNoted request).Meets BufferUse.Safe := by
  cases request with
  | append logline => exact rotating.append_safe logline
  | backend => exact rotating.backend_safe
  | start | stop => exact meets_lift _

/-- Messages of any length keep the buffers rotating. -/
theorem Rotating.call (rotating : log.Rotating) (request : LogCall) :
    Spec (fun fault => fault = .notEnabled) Rotating (log.call request) := by
  have other (event : LogEvent) : Spec (fun fault => fault = .notEnabled) Rotating
      (log.step event) :=
    (rotating.stepped event).mono fun _ stepped => stepped.rotating rotating
  cases request with
  | append logline =>
      obtain ⟨log', current, returned, rotating', -⟩ := rotating.append_grows logline
      rw [AsyncLogging.call, returned]
      exact rotating'
  | start => exact other .start
  | stop => exact other .stop
  | backend => exact other .backend

/-- The log as it is created and called, with the uses of all calls. -/
def runNoted (calls : List LogCall) : Noted BufferUse Fault AsyncLogging := do
  let log ← createNoted
  run callNoted log calls

theorem runNoted_result (calls : List LogCall) :
    (runNoted calls).result = Transition.run call create calls := by
  have same : (fun log request => (callNoted log request).result) = call := by
    funext log request
    exact callNoted_result log request
  show (run callNoted create calls).result = _
  rw [run_result, same]

/-- In every interleaving each use finds the buffer it needs, a buffer that is put in place is
empty, and no call fails that is enabled. -/
theorem rotation_safe (calls : List LogCall) :
    (runNoted calls).result = Transition.run call create calls ∧
      (∀ event ∈ (runNoted calls).notes, event.Safe) ∧
      Transition.Always call (fun log => log.currentBuffer.isSome)
        (fun fault => fault = .notEnabled) create calls := by
  refine ⟨runNoted_result calls, ?_, ?_⟩
  · have created : createNoted.Meets BufferUse.Safe :=
      Meets.bind ((meets_note_iff _).mpr rfl) fun _ _ =>
        Meets.bind ((meets_note_iff _).mpr rfl) fun _ _ => meets_pure _
    refine Meets.bind created fun log taken => ?_
    cases taken
    refine run_meets Rotating ?_ (fun log request rotating => rotating.call_safe request)
      create_rotating calls
    intro log request next rotating taken
    rw [callNoted_result] at taken
    exact (rotating.call request).of_ok taken
  · exact Transition.always_of_guarded Rotating (fun log rotating => rotating.current)
      (fun log request rotating _ => rotating.call request) create_rotating
      (Transition.guarded_true create calls)

example : (runNoted (.start :: List.replicate 6 .backend)).notes =
    [.install (some .empty), .install (some .empty), .iterate (some .empty) (some .empty),
      .current (some .empty), .install (some .empty), .back [some .empty]] := rfl

end AsyncLogging

end KamaWebserver
