import KamaWebserver.Session

set_option autoImplicit false

namespace KamaWebserver

open Outcome Trace Transition

def Functor.isSendFile : Functor → Bool
  | .sendFileInLoop _ _ _ => true
  | _ => false

/-- What is handed over in two parts is one segment. -/
theorem fileSegment_append (file : List UInt8) (offset first second : Nat) :
    fileSegment file offset first ++ fileSegment file (offset + first) second =
      fileSegment file offset (first + second) := by
  simp only [fileSegment, List.take_add, List.drop_drop]

theorem IoResult.accepted_segment (result : IoResult) (file : List UInt8) (offset count : Nat) :
    result.accepted (fileSegment file offset count) =
      fileSegment file offset (result.accepted (fileSegment file offset count)).length := by
  have part : result.accepted (fileSegment file offset count) <+: fileSegment file offset count :=
    ⟨_, result.accepted_prefix _⟩
  have taken : result.accepted (fileSegment file offset count) <+: file.drop offset :=
    part.trans (List.take_prefix count _)
  exact List.prefix_iff_eq_take.mp taken

namespace TcpConnection

/-- The functors of the loop still to run, the batch first. -/
def queue (c : TcpConnection) : List Functor := c.functors ++ c.pendingFunctors

/-- What the kernel has taken from `c` to `after`. -/
def handedSince (c after : TcpConnection) : List UInt8 :=
  stream Effect.handed (after.trace.take (after.trace.length - c.trace.length))

/-- The place in the queue of the `sendFileInLoop` queued from `c` to `after`, if any. -/
def continuation (c after : TcpConnection) : Option Nat :=
  ((after.queue.drop c.queue.length).findIdx? Functor.isSendFile).map (c.queue.length + ·)

/-- Functors are queued behind those that wait. -/
structure Grows (c after : TcpConnection) : Prop where
  functors : after.functors = c.functors
  pendingFunctors : c.pendingFunctors <+: after.pendingFunctors

variable {c after : TcpConnection}

theorem Grows.queue (grows : c.Grows after) : c.queue <+: after.queue := by
  simpa only [TcpConnection.queue, grows.functors, List.prefix_append_right_inj] using
    grows.pendingFunctors

theorem Runs.grows (runs : c.Runs after) : c.Grows after := by
  obtain ⟨added, queued, -⟩ := runs.pending
  exact ⟨runs.functors, queued ▸ List.prefix_append _ _⟩

theorem Grows.refl (c : TcpConnection) : c.Grows c := ⟨rfl, List.prefix_rfl⟩

theorem queueInLoop_grows (c : TcpConnection) (functor : Functor) :
    c.Grows (c.queueInLoop functor) :=
  ⟨rfl, List.prefix_append _ _⟩

/-- A functor found for the rest of a file is one of those queued. -/
theorem continuation_eq_some {added : List Functor} (queued : after.queue = c.queue ++ added)
    {place : Nat} (found : c.continuation after = some place) :
    ∃ functor ∈ added, functor.isSendFile = true ∧ after.queue[place]? = some functor := by
  simp only [continuation, queued, List.drop_left, Option.map_eq_some_iff] at found
  obtain ⟨index, first, rfl⟩ := found
  obtain ⟨inside, marked, -⟩ := List.findIdx?_eq_some_iff_getElem.mp first
  refine ⟨added[index], List.getElem_mem inside, marked, ?_⟩
  rw [queued, List.getElem?_append_right (Nat.le_add_right _ _), Nat.add_sub_cancel_left]
  exact List.getElem?_eq_getElem inside

theorem handedSince_eq {effects : List Effect} (shown : after.trace = effects ++ c.trace) :
    c.handedSince after = stream Effect.handed effects := by
  simp [handedSince, shown]

/-- From `c` to `after` one run of `sendFileInLoop` hands over the first `taken` bytes of its
segment; what it queues for the rest starts behind them. -/
structure HandsOver (c after : TcpConnection) (file : List UInt8) (offset count taken : Nat) :
    Prop where
  part : taken ≤ count
  handed : ∃ effects, after.trace = effects ++ c.trace ∧
    stream Effect.handed effects = fileSegment file offset taken
  length : (fileSegment file offset taken).length = taken
  queue : ∃ added, after.queue = c.queue ++ added ∧ ∀ functor ∈ added,
    functor.isSendFile = true → functor = .sendFileInLoop file (offset + taken) (count - taken)

theorem requeueFile_handsOver (c : TcpConnection) (file : List UInt8) (offset count : Nat) :
    c.HandsOver (c.requeueFile file offset count) file offset count 0 := by
  refine ⟨Nat.zero_le _, ?_, by simp, ?_⟩
  · unfold requeueFile
    split
    · exact ⟨[.queueInLoop (.sendFileInLoop file offset count)], rfl, by simp [Effect.handed]⟩
    · exact ⟨[], rfl, by simp⟩
  · unfold requeueFile
    split
    · exact ⟨[.sendFileInLoop file offset count],
        by simp [TcpConnection.queue, queueInLoop], by simp⟩
    · exact ⟨[], by simp, by simp⟩

/-- The notice of a complete transfer hands nothing over and is no file. -/
theorem completeWrite_notices (c : TcpConnection) (remaining : Nat) :
    (∃ effects, (c.completeWrite remaining).trace = effects ++ c.trace ∧
      stream Effect.handed effects = []) ∧
    ∃ added, (c.completeWrite remaining).queue = c.queue ++ added ∧
      ∀ functor ∈ added, functor.isSendFile = false := by
  unfold completeWrite queueWriteComplete
  split
  · split
    · exact ⟨⟨[.queueInLoop .writeComplete], rfl, by simp [Effect.handed]⟩,
        [.writeComplete], by simp [TcpConnection.queue, queueInLoop], by simp [Functor.isSendFile]⟩
    · exact ⟨⟨[], rfl, rfl⟩, [], by simp, by simp⟩
  · exact ⟨⟨[], rfl, rfl⟩, [], by simp, by simp⟩

theorem sendFileInLoop_handsOver (c : TcpConnection) (file : List UInt8) (offset count : Nat)
    (result : IoResult) : ∃ taken,
      c.HandsOver (c.sendFileInLoop file offset count result) file offset count taken := by
  have sent := result.accepted_segment file offset count
  unfold sendFileInLoop
  split
  · exact ⟨0, Nat.zero_le _, ⟨[], rfl, by simp⟩, by simp, [], by simp, by simp⟩
  · split
    · cases result with
      | count n =>
          dsimp only
          generalize taken :
              ((IoResult.count n).accepted (fileSegment file offset count)).length = k
            at sent ⊢
          obtain ⟨⟨notices, shown, silent⟩, notes, noted, plain⟩ := completeWrite_notices
            (c.emit (.sendfile ((IoResult.count n).accepted (fileSegment file offset count))))
            (count - k)
          obtain ⟨-, ⟨effects, traced, none⟩, -, added, queued, rest⟩ := requeueFile_handsOver
            ((c.emit (.sendfile ((IoResult.count n).accepted
              (fileSegment file offset count)))).completeWrite (count - k)) file (offset + k)
            (count - k)
          refine ⟨k, ?_, ⟨effects ++ notices ++ [.sendfile (fileSegment file offset k)], ?_, ?_⟩,
            ?_, notes ++ added, ?_, ?_⟩
          · rw [← taken]
            simp only [IoResult.accepted, fileSegment, List.length_take]
            omega
          · rw [traced, shown, ← sent]
            simp [emit]
          · simp [none, silent, Effect.handed]
          · rw [← sent, taken]
          · rw [queued, noted, List.append_assoc]
            rfl
          · intro functor inside file'
            rcases List.mem_append.mp inside with note | more
            · rw [plain functor note] at file'
              cases file'
            · simpa using rest functor more file'
      | error errno =>
          dsimp only
          split
          · exact ⟨0, Nat.zero_le _, ⟨[.sendfile []], rfl, by simp [Effect.handed]⟩, by simp, [],
              by simp [TcpConnection.queue, emit, IoResult.accepted], by simp⟩
          · obtain ⟨part, ⟨effects, traced, none⟩, length, queued⟩ := requeueFile_handsOver
              (c.emit (.sendfile [])) file offset count
            exact ⟨0, part, ⟨effects ++ [.sendfile []],
                by simpa [emit, IoResult.accepted] using traced,
              by simpa [Effect.handed] using none⟩, length, queued⟩
    · exact ⟨0, requeueFile_handsOver c file offset count⟩

end TcpConnection

namespace SessionEvent

/-- How many functors leave the queue. -/
def pops : SessionEvent → Nat
  | .runFunctor _ => 1
  | _ => 0

end SessionEvent

namespace Session

variable {s after : Session}

theorem advance_grows {index : Nat} (taken : s.advance index = .ok after) :
    s.conn.Grows after.conn := by
  obtain ⟨call, -, rfl⟩ := advance_ok taken
  cases call with
  | queueSend data => exact TcpConnection.queueInLoop_grows _ _
  | queueSendFile file offset count => exact TcpConnection.queueInLoop_grows _ _
  | storeDisconnecting => exact ⟨rfl, List.prefix_rfl⟩
  | queueShutdown => exact TcpConnection.queueInLoop_grows _ _

theorem interleave_grows {between : Option Nat} (taken : s.interleave between = .ok after) :
    s.conn.Grows after.conn := by
  cases between with
  | none =>
      cases taken
      exact TcpConnection.Grows.refl _
  | some index => exact advance_grows taken

/-- Every step takes at most the first functor off the queue and adds behind the others. -/
theorem step_queue {event : SessionEvent} (sound : s.conn.Sound)
    (taken : s.step event = .ok after) : s.conn.queue.drop event.pops <+: after.conn.queue := by
  cases step_inv taken with
  | handleEvent revents idle between seen => exact List.prefix_rfl
  | handleClose rest conn waiting closed =>
      exact (TcpConnection.handleClose_runs sound closed).grows.queue
  | handleError rest conn waiting closed =>
      exact (TcpConnection.handleClose_runs sound closed).grows.queue
  | handleRead result rest conn again waiting read =>
      exact (TcpConnection.readOnce_runs sound read).grows.queue
  | handleWrite results rest conn waiting wrote =>
      exact (TcpConnection.handleWrite_runs sound wrote).grows.queue
  | doPendingFunctors idle between =>
      simp [SessionEvent.pops, TcpConnection.queue, TcpConnection.swapFunctors, between]
  | runFunctor result functor functors conn batch ran =>
      have grows := (TcpConnection.runFunctor_runs (sound.setBatch functors) ran).grows.queue
      simpa [SessionEvent.pops, TcpConnection.queue, TcpConnection.setBatch, batch] using grows
  | retrieve len => exact List.prefix_rfl
  | send data result conn up ran =>
      exact (TcpConnection.sendInLoop_runs (sound.emit _) ran).grows.queue
  | sendRefused data result down => exact List.prefix_rfl
  | sendFile file offset count result between middle up other =>
      have first := (interleave_grows other).queue
      have second := (TcpConnection.sendFileInLoop_runs
        (interleave_sound (accept_sound sound _) other) file offset count result).grows.queue
      exact List.IsPrefix.trans first second
  | sendFileRefused file offset count result between down => exact List.prefix_rfl
  | shutdown up =>
      exact (TcpConnection.shutdownInLoop_extends
        (sound.setState .kDisconnecting)).runs.grows.queue
  | shutdownRefused down => exact List.prefix_rfl
  | other call up first => cases call <;> exact List.prefix_rfl
  | advance index _ moved => exact (advance_grows moved).queue
  | storeOverwritten index found down => exact List.prefix_rfl
  | removeConnectionInLoop closed => exact (TcpConnection.queueInLoop_grows _ _).queue
  | destroyHere conn tabled idle ran =>
      exact (TcpConnection.connectDestroyed_runs sound ran).grows.queue
  | destroyElsewhere tabled => exact (TcpConnection.queueInLoop_grows _ _).queue

end Session

/-- One call of `sendFile` in a session: what the kernel has taken of the file in the runs of
`sendFileInLoop` the call leads to, and the place in the queue of the functor of the next run. -/
structure Transfer where
  session : Session
  handed : List UInt8
  place : Option Nat

namespace Transfer

/-- A step of the session is a run of the transfer when it runs the functor that was queued
for it. -/
def step (t : Transfer) (event : SessionEvent) : Except Fault Transfer := do
  let after ← t.session.step event
  if t.place = some 0 ∧ event.pops = 1 then
    let before := t.session.conn.setBatch t.session.conn.functors.tail
    return ⟨after, t.handed ++ before.handedSince after.conn, before.continuation after.conn⟩
  else return ⟨after, t.handed, t.place.map (· - event.pops)⟩

/-- A call of `sendFile` has been made: on the loop's thread, where the first run is part of
the call, or on another thread, where its functor has been queued. -/
inductive Begins (file : List UInt8) (offset count : Nat) (s : Session) : Transfer → Prop
  | inLoopThread (middle after : Session) (result : IoResult) (between : Option Nat)
      (up : s.conn.connected = true)
      (other : (s.accept (fileSegment file offset count)).interleave between = .ok middle)
      (called : s.step (.sendFile file offset count result between) = .ok after) :
      Begins file offset count s
        ⟨after, middle.conn.handedSince after.conn, middle.conn.continuation after.conn⟩
  | queued (place : Nat)
      (waits : s.conn.queue[place]? = some (.sendFileInLoop file offset count)) :
      Begins file offset count s ⟨s, [], some place⟩

/-- What has been handed over is the beginning of the segment, and the functor that waits has
the rest. -/
structure Contiguous (t : Transfer) (file : List UInt8) (offset count k : Nat) : Prop where
  part : k ≤ count
  handed : t.handed = fileSegment file offset k
  length : t.handed.length = k
  waits : ∀ place, t.place = some place →
    t.session.conn.queue[place]? = some (.sendFileInLoop file (offset + k) (count - k))

variable {t next : Transfer} {file : List UInt8} {offset count k : Nat}

/-- A run of the transfer goes on where the run before it ended. -/
theorem Contiguous.run (holds : t.Contiguous file offset count k) {after : Session}
    {before : TcpConnection} {taken : Nat}
    (hands : before.HandsOver after.conn file (offset + k) (count - k) taken) :
    Contiguous ⟨after, t.handed ++ before.handedSince after.conn, before.continuation after.conn⟩
      file offset count (k + taken) := by
  obtain ⟨part, ⟨effects, shown, bytes⟩, length, added, queued, rest⟩ := hands
  have segment : t.handed ++ before.handedSince after.conn =
      fileSegment file offset (k + taken) := by
    rw [TcpConnection.handedSince_eq shown, bytes, holds.handed, fileSegment_append]
  have begun := holds.length
  have whole := holds.part
  refine ⟨by omega, segment, ?_, ?_⟩
  · rw [List.length_append, begun, TcpConnection.handedSince_eq shown, bytes, length]
  · intro place found
    obtain ⟨functor, inside, file', stands⟩ := TcpConnection.continuation_eq_some queued found
    rw [stands, rest functor inside file', Nat.add_assoc, Nat.sub_sub]

theorem Begins.contiguous {s : Session} (begins : Begins file offset count s t) :
    ∃ k, t.Contiguous file offset count k := by
  cases begins with
  | inLoopThread middle after result between up other called =>
      simp only [Session.step, Session.sendFile, up, ↓reduceIte, other] at called
      cases called
      obtain ⟨taken, hands⟩ := middle.conn.sendFileInLoop_handsOver file offset count result
      have fresh : Contiguous ⟨middle, [], none⟩ file offset count 0 := by
        refine ⟨Nat.zero_le _, by simp, rfl, ?_⟩
        intro place found
        cases found
      exact ⟨0 + taken, fresh.run hands⟩
  | queued place waits =>
      refine ⟨0, Nat.zero_le _, by simp, rfl, ?_⟩
      intro other same
      cases same
      exact waits

/-- The steps between two runs leave the functor in the queue. -/
theorem Contiguous.wait (holds : t.Contiguous file offset count k) {event : SessionEvent}
    {after : Session} (sound : t.session.conn.Sound) (taken : t.session.step event = .ok after)
    (waits : t.place = some 0 → event.pops = 0) :
    Contiguous ⟨after, t.handed, t.place.map (· - event.pops)⟩ file offset count k := by
  refine ⟨holds.part, holds.handed, holds.length, ?_⟩
  intro place moved
  obtain ⟨earlier, stood, rfl⟩ := Option.map_eq_some_iff.mp moved
  have ahead : event.pops ≤ earlier := by
    cases earlier with
    | zero => exact Nat.le_of_eq (waits stood)
    | succ n => cases event <;> simp [SessionEvent.pops]
  have found := holds.waits earlier stood
  obtain ⟨behind, grown⟩ := Session.step_queue sound taken
  have inside : earlier - event.pops < (t.session.conn.queue.drop event.pops).length := by
    have bound := (List.getElem?_eq_some_iff.mp found).1
    rw [List.length_drop]
    omega
  rw [← grown, List.getElem?_append_left inside, List.getElem?_drop, Nat.add_sub_cancel' ahead]
  exact found

theorem step_contiguous (sound : t.session.conn.Sound) (holds : t.Contiguous file offset count k)
    {event : SessionEvent} (taken : t.step event = .ok next) :
    next.session.conn.Sound ∧ ∃ k, next.Contiguous file offset count k := by
  obtain ⟨after, stepped, returned⟩ := (bind_ok_iff _ _ _).mp taken
  have sound' := Session.step_sound sound stepped
  split at returned
  · rename_i due
    obtain ⟨first, runs⟩ := due
    cases returned
    refine ⟨sound', ?_⟩
    have waits := holds.waits 0 first
    cases Session.step_inv stepped with
    | runFunctor result functor functors conn batch ran =>
        have same : functor = .sendFileInLoop file (offset + k) (count - k) := by
          simpa [TcpConnection.queue, batch] using waits
        subst same
        cases ran
        obtain ⟨taken, hands⟩ := (t.session.conn.setBatch functors).sendFileInLoop_handsOver file
          (offset + k) (count - k) result
        have front : t.session.conn.functors.tail = functors := by rw [batch, List.tail_cons]
        rw [front]
        exact ⟨k + taken, holds.run hands⟩
    | _ => cases runs
  · rename_i other
    cases returned
    refine ⟨sound', k, holds.wait sound stepped fun first => ?_⟩
    cases event with
    | runFunctor result => exact absurd ⟨first, rfl⟩ other
    | _ => rfl

/-- Whatever happens between the runs of a transfer and however much each of them sends, the
file is handed over from `offset` on without gap or repetition, and the functor that waits in
the queue has exactly the rest. -/
theorem sendFile_contiguous (config : Session.Config) (file : List UInt8) (offset count : Nat)
    (s : Session) (begun t : Transfer) (events : List SessionEvent)
    (reachable : Reachable Session.step (Session.start config) s)
    (begins : Begins file offset count s begun) (reached : run step begun events = .ok t) :
    ∃ k ≤ count, t.handed = fileSegment file offset k ∧ t.handed.length = k ∧
      ∀ place, t.place = some place →
        t.session.conn.queue[place]? = some (.sendFileInLoop file (offset + k) (count - k)) := by
  have sound : begun.session.conn.Sound := by
    have before := Session.reachable_sound reachable
    cases begins with
    | inLoopThread middle after result between up other called =>
        exact Session.step_sound before called
    | queued place waits => exact before
  have holds := Reachable.preserves
    (fun t : Transfer => t.session.conn.Sound ∧ ∃ k, t.Contiguous file offset count k)
    (fun t event next before taken => by
      obtain ⟨sound, k, holds⟩ := before
      exact step_contiguous sound holds taken)
    ⟨sound, begins.contiguous⟩ ⟨events, reached⟩
  obtain ⟨-, k, part, handed, length, waits⟩ := holds
  exact ⟨k, part, handed, length, waits⟩

/-- Two short transfers, with an EAGAIN between them. -/
theorem sendFile_contiguous_resumed :
    ∃ begun t, Begins [1, 2, 3, 4] 1 3 (Session.start Session.plainConfig) begun ∧
      run step begun [.doPendingFunctors, .runFunctor (.error .EAGAIN), .doPendingFunctors,
        .runFunctor (.count 1)] = .ok t ∧ t.handed = [2, 3] ∧
      ∃ k ≤ 3, t.handed = fileSegment [1, 2, 3, 4] 1 k ∧ t.handed.length = k ∧
        ∀ place, t.place = some place → t.session.conn.queue[place]? =
          some (.sendFileInLoop [1, 2, 3, 4] (1 + k) (3 - k)) := by
  let middle := (Session.start Session.plainConfig).accept (fileSegment [1, 2, 3, 4] 1 3)
  let after : Session :=
    { middle with conn := middle.conn.sendFileInLoop [1, 2, 3, 4] 1 3 (.count 1) }
  have begins : Begins [1, 2, 3, 4] 1 3 (Session.start Session.plainConfig)
      ⟨after, middle.conn.handedSince after.conn, middle.conn.continuation after.conn⟩ :=
    .inLoopThread middle after (.count 1) none rfl rfl rfl
  obtain ⟨t, reached, handed⟩ := (map_ok_iff _ _ _).mp
    (show (run step ⟨after, middle.conn.handedSince after.conn,
      middle.conn.continuation after.conn⟩ [.doPendingFunctors, .runFunctor (.error .EAGAIN),
        .doPendingFunctors, .runFunctor (.count 1)]).map Transfer.handed = .ok [2, 3] by
      decide +kernel)
  exact ⟨_, t, begins, reached, handed, sendFile_contiguous Session.plainConfig _ 1 3 _ _ t _
    ⟨[], rfl⟩ begins reached⟩

end Transfer

end KamaWebserver
