import KamaWebserver.Session

set_option autoImplicit false

namespace KamaWebserver

open Outcome Trace Transition

/-- At every `shutdownWrite` the kernel has been handed every accepted byte. -/
def Graceful (trace : List Effect) : Prop :=
  AtEach (· = .shutdownWrite)
    (fun earlier => (stream Effect.handed earlier).Perm (stream Effect.accepted earlier)) trace

namespace TcpConnection

/-- Accepted bytes that wait in the loop's queue, in the batch being run, or in a call in
flight on another thread. -/
def queuedWork (c : TcpConnection) (calls : List UserCall) : List UInt8 :=
  Functor.workOf c.functors ++ Functor.workOf c.pendingFunctors ++ calls.flatMap UserCall.work

/-- Every accepted byte is handed over, buffered, waiting, or `held` by the call the loop's
thread is making; buffered output is watched; every `shutdownWrite` was graceful. -/
structure Balanced (c : TcpConnection) (calls : List UserCall) (held : List UInt8) : Prop where
  sound : c.Sound
  watched : c.Watched
  balance : ∀ byte, (stream Effect.accepted c.visible).count byte =
    (stream Effect.handed c.visible).count byte + c.readable.count byte +
      (c.queuedWork calls).count byte + held.count byte
  graceful : Graceful c.visible

variable {c after : TcpConnection} {calls : List UserCall} {held : List UInt8}

theorem Balanced.trace_graceful (balanced : c.Balanced calls held) : Graceful c.trace := by
  refine (atEach_filter_iff Effect.isVisible ?_ ?_ c.trace).mp balanced.graceful
  · rintro effect hidden rfl
    cases hidden
  · intro trace
    have silent : ∀ effect : Effect, effect.isVisible = false →
        effect.handed = [] ∧ effect.accepted = [] := by
      intro effect hidden
      cases effect <;> first | exact ⟨rfl, rfl⟩ | cases hidden
    rw [stream_filter _ _ fun effect hidden => (silent effect hidden).1,
      stream_filter _ _ fun effect hidden => (silent effect hidden).2]

/-- With nothing waiting and nothing held, what is handed over next completes the output. -/
theorem Balanced.all_handed (balanced : c.Balanced calls []) (drained : c.queuedWork calls = [])
    (effects : List Effect) (handed : stream Effect.handed effects = c.readable)
    (accepted : stream Effect.accepted effects = []) :
    (stream Effect.handed (effects ++ c.visible)).Perm
      (stream Effect.accepted (effects ++ c.visible)) := by
  rw [List.perm_iff_count]
  intro byte
  have before := balanced.balance byte
  rw [drained] at before
  simp only [stream_append, handed, accepted, List.count_append, List.count_nil] at before ⊢
  omega

/-- A step is accounted for by what it shows and what it moves between the places where
bytes wait, and closes the write side only when that is graceful. -/
theorem Balanced.of_step (balanced : c.Balanced calls held) {calls' : List UserCall}
    {held' : List UInt8} (effects : List Effect)
    (sound : after.Sound) (watched : after.Watched)
    (seen : after.visible = effects ++ c.visible)
    (moved : ∀ byte, (stream Effect.accepted effects).count byte + c.readable.count byte +
        (c.queuedWork calls).count byte + held.count byte =
      (stream Effect.handed effects).count byte + after.readable.count byte +
        (after.queuedWork calls').count byte + held'.count byte)
    (graceful : AtEach (· = .shutdownWrite)
      (fun earlier => (stream Effect.handed (earlier ++ c.visible)).Perm
        (stream Effect.accepted (earlier ++ c.visible))) effects) :
    after.Balanced calls' held' := by
  refine ⟨sound, watched, ?_, ?_⟩
  · intro byte
    have before := balanced.balance byte
    have step := moved byte
    simp only [seen, stream_append, List.count_append]
    omega
  · rw [seen]
    exact AtEach.append balanced.graceful graceful

theorem Extends.queuedWork {left : List UInt8} {effects : List Effect}
    (extended : c.Extends after left effects) (calls : List UserCall) (byte : UInt8) :
    (after.queuedWork calls).count byte = (c.queuedWork calls).count byte + left.count byte := by
  obtain ⟨added, queued, work, -⟩ := extended.pending
  simp only [TcpConnection.queuedWork, extended.functors, queued, Functor.workOf_append, work,
    List.count_append]
  omega

/-- The bytes held go to the output, into its buffer and into new queued work. -/
theorem Balanced.of_extends (balanced : c.Balanced calls held) {left : List UInt8}
    {effects : List Effect} (extended : c.Extends after left effects) (watched : after.Watched)
    (accepted : stream Effect.accepted effects = [])
    (moved : (stream Effect.handed effects ++ after.readable ++ left).Perm (c.readable ++ held))
    (graceful : AtEach (· = .shutdownWrite)
      (fun earlier => (stream Effect.handed (earlier ++ c.visible)).Perm
        (stream Effect.accepted (earlier ++ c.visible))) effects) :
    after.Balanced calls [] := by
  refine balanced.of_step effects extended.sound watched extended.visible ?_ graceful
  intro byte
  have counts := moved.count_eq byte
  simp only [List.count_append] at counts
  rw [accepted, extended.queuedWork]
  simp only [List.count_nil]
  omega

/-- A step that shows nothing of the output and leaves output and interest alone. -/
theorem Balanced.of_idle (balanced : c.Balanced calls held) {calls' : List UserCall}
    {held' : List UInt8} (sound : after.Sound) (readable : after.readable = c.readable)
    (writing : after.channel.isWriting = c.channel.isWriting)
    (seen : after.visible = c.visible)
    (work : ∀ byte, (c.queuedWork calls).count byte + held.count byte =
      (after.queuedWork calls').count byte + held'.count byte) :
    after.Balanced calls' held' := by
  refine balanced.of_step [] sound ?_ (by rw [seen]; rfl) ?_ trivial
  · unfold Watched
    rw [writing, readable]
    exact balanced.watched
  · intro byte
    have same := work byte
    rw [readable]
    simp only [stream_nil, List.count_nil]
    omega

theorem queuedWork_queueInLoop (c : TcpConnection) (functor : Functor) (calls : List UserCall)
    (byte : UInt8) : ((c.queueInLoop functor).queuedWork calls).count byte =
      (c.queuedWork calls).count byte + functor.work.count byte := by
  simp only [queuedWork, queueInLoop, Functor.workOf_append, Functor.workOf_cons,
    Functor.workOf_nil, List.append_nil, List.count_append]
  omega

/-- A call in flight holds its bytes. -/
theorem queuedWork_calls (c : TcpConnection) (first second : List UserCall) (call : UserCall)
    (byte : UInt8) : (c.queuedWork (first ++ call :: second)).count byte =
      (c.queuedWork (first ++ second)).count byte + call.work.count byte := by
  simp only [queuedWork, List.flatMap_append, List.flatMap_cons, List.count_append]
  omega

/-- The call made takes the bytes it holds into the output. -/
theorem Balanced.sendInLoop {data : ByteString} {result : IoResult}
    (balanced : c.Balanced calls data.bytes) (kept : result.givesUp = false)
    (ran : c.sendInLoop data result = .ok after) : after.Balanced calls [] := by
  obtain ⟨effects, extended, shown, -, rest⟩ :=
    (sendInLoop_spec balanced.sound data result).of_ok ran
  obtain ⟨watched, handed⟩ := rest balanced.watched fun _ => kept
  have accepted := Effect.stream_accepted fun effect inside => Or.inl (shown effect inside)
  refine balanced.of_extends extended watched accepted ?_ (AtEach.of_unmarked ?_)
  · rw [handed, List.append_nil]
  · rintro effect inside rfl
    cases shown _ inside

theorem Balanced.sendFileInLoop {file : List UInt8} {offset count : Nat} {result : IoResult}
    (balanced : c.Balanced calls (fileSegment file offset count))
    (kept : result.givesUp = false)
    (sends : c.state ≠ .kDisconnecting ∨ fileSegment file offset count = []) :
    (c.sendFileInLoop file offset count result).Balanced calls [] := by
  obtain ⟨left, extended, rest⟩ :=
    sendFileInLoop_extends balanced.sound file offset count result
  have shown := fileEffects_isOutput c (fileSegment file offset count) result
  have accepted := Effect.stream_accepted fun effect inside => Or.inl (shown effect inside)
  obtain ⟨readable, channel⟩ := sendFileInLoop_keeps c file offset count result
  refine balanced.of_extends extended ?_ accepted ?_ (AtEach.of_unmarked ?_)
  · unfold Watched
    rw [readable, channel]
    exact balanced.watched
  · have moved := List.perm_append_comm_assoc
      (stream Effect.handed (c.fileEffects (fileSegment file offset count) result)) c.readable left
    rw [rest sends kept] at moved
    rw [readable, List.append_assoc]
    exact moved
  · rintro effect inside rfl
    cases shown _ inside

theorem Balanced.shutdownInLoop (balanced : c.Balanced calls [])
    (drained : c.channel.isWriting = false → c.queuedWork calls = []) :
    c.shutdownInLoop.Balanced calls [] := by
  have extended := shutdownInLoop_extends balanced.sound
  refine balanced.of_step _ extended.sound ?_ extended.visible ?_ ?_
  · unfold Watched
    rw [shutdownInLoop_readable, shutdownInLoop_channel]
    exact balanced.watched
  · intro byte
    rw [extended.queuedWork, shutdownInLoop_readable]
    split <;> simp [Effect.accepted, Effect.handed]
  · split
    · trivial
    · rename_i idle
      rw [Bool.not_eq_true] at idle
      have empty : c.readable = [] := by
        by_contra some
        have writing := balanced.watched.mpr some
        rw [idle] at writing
        cases writing
      exact ⟨trivial, fun _ => balanced.all_handed (drained idle) [] empty.symm rfl⟩

/-- `handleWrite` closes the write side only after the last buffered byte. -/
theorem Balanced.handleWrite (balanced : c.Balanced calls []) {results : List IoResult}
    (drained : c.state = .kDisconnecting → c.channel.isWriting = true →
      drains c.readable.length results = true → c.queuedWork calls = [])
    (wrote : c.handleWrite results = .ok after) : after.Balanced calls [] := by
  obtain ⟨next, effects, returned, extended, shown, -, handed, watched, closes⟩ :=
    handleWrite_ok balanced.sound results
  cases returned.symm.trans wrote
  have accepted := Effect.stream_accepted shown
  refine balanced.of_extends extended (watched balanced.watched) accepted ?_ ?_
  · rw [handed, List.append_nil]
  · apply closes.suffix.mono
    rintro earlier ⟨⟨writing, leaving, empties, all⟩, part⟩
    exact balanced.all_handed (drained leaving writing empties) earlier all
      (Effect.stream_accepted fun effect inside => shown effect (part.subset inside))

theorem Balanced.accept (balanced : c.Balanced calls held) (payload : List UInt8) :
    (c.emit (.accept payload)).Balanced calls (held ++ payload) := by
  refine balanced.of_step [.accept payload] (balanced.sound.emit _)
    balanced.watched rfl ?_
    (AtEach.of_unmarked (by simp))
  intro byte
  have same : (c.emit (.accept payload)).queuedWork calls = c.queuedWork calls := rfl
  have kept : (c.emit (.accept payload)).readable = c.readable := rfl
  rw [same, kept]
  simp only [stream_cons, stream_nil, List.nil_append, Effect.accepted, Effect.handed,
    List.count_append, List.count_nil]
  omega

/-- Another thread's call begins: what it accepts is in flight. -/
theorem Balanced.begin (balanced : c.Balanced calls held) (call : UserCall) :
    (call.begin c).Balanced (calls ++ [call]) held := by
  have flight : ∀ payload, call.work = payload →
      (c.emit (.accept payload)).Balanced (calls ++ [call]) held := by
    intro payload work
    have accepted := balanced.accept payload
    refine accepted.of_idle accepted.sound rfl rfl rfl ?_
    intro byte
    simp only [queuedWork, List.flatMap_append, List.flatMap_singleton, work, List.count_append]
    omega
  have silent : call.work = [] → c.Balanced (calls ++ [call]) held := by
    intro work
    refine balanced.of_idle balanced.sound rfl rfl rfl ?_
    intro byte
    simp only [queuedWork, List.flatMap_append, List.flatMap_singleton, work, List.append_nil]
  cases call with
  | queueSend data => exact flight _ rfl
  | queueSendFile file offset count => exact flight _ rfl
  | storeDisconnecting => exact silent rfl
  | queueShutdown => exact silent rfl

/-- Taking the next functor off the batch puts its bytes into the loop's hands. -/
theorem Balanced.pop (balanced : c.Balanced calls []) {functor : Functor}
    {functors : List Functor} (batch : c.functors = functor :: functors) :
    (c.setBatch functors).Balanced calls functor.work := by
  refine balanced.of_idle (balanced.sound.setBatch functors) rfl rfl rfl ?_
  intro byte
  simp only [queuedWork, batch, setBatch, Functor.workOf_cons, List.count_append, List.count_nil]
  omega

theorem Balanced.swap (balanced : c.Balanced calls held) (between : c.functors = []) :
    c.swapFunctors.Balanced calls held := by
  refine balanced.of_idle balanced.sound.swapFunctors rfl rfl rfl ?_
  intro byte
  simp [queuedWork, between, swapFunctors]

theorem Balanced.readOnce (balanced : c.Balanced calls held) {result : ReadResult} {again : Bool}
    (goes : c.closesOnRead result = false) (read : c.readOnce result = .ok (after, again)) :
    after.Balanced calls held := by
  obtain ⟨sound, channel, -, outputBuffer, functors, pending, trace⟩ :=
    (readOnce_keeps balanced.sound result goes).of_ok read
  have kept : after.outputBuffer = c.outputBuffer := outputBuffer
  have queues : after.queuedWork calls = c.queuedWork calls := by
    simp only [queuedWork, show after.functors = _ from functors,
      show after.pendingFunctors = _ from pending]
  have watched : after.Watched := by
    have same : after.channel = c.channel := channel
    simpa only [Watched, same, readable, kept] using balanced.watched
  rcases trace with same | grown
  · refine balanced.of_step [] sound watched ?_ ?_ trivial
    · simp only [visible, show after.trace = _ from same, List.nil_append]
    · intro byte
      rw [queues]
      simp only [readable, kept, stream_nil]
  · refine balanced.of_step [.messageCallback] sound watched ?_ ?_
      (AtEach.of_unmarked (by simp))
    · rw [visible, show after.trace = _ from grown]
      rfl
    · intro byte
      rw [queues]
      simp only [readable, kept]
      rfl

theorem Balanced.connectEstablished (balanced : c.Balanced calls held)
    (ran : c.connectEstablished = .ok after) : after.Balanced calls held := by
  obtain ⟨next, returned, switched, -, writing⟩ := connectEstablished_ok balanced.sound
  cases returned.symm.trans ran
  refine balanced.of_step [.connectionCallback true] switched.sound ?_ ?_ ?_
    (AtEach.of_unmarked (by simp))
  · unfold Watched readable
    rw [writing, switched.outputBuffer]
    exact balanced.watched
  · rw [visible, switched.trace]
    rfl
  · intro byte
    simp only [queuedWork, readable, switched.functors, switched.pendingFunctors,
      switched.outputBuffer]
    rfl

end TcpConnection

namespace Session

/-- Sends, files, shutdowns, writable events and their functors, where no transfer ends in
EPIPE or ECONNRESET and the connection is not closed. -/
def Outputs (s : Session) : SessionEvent → Prop
  | .handleClose => False
  | .handleError => False
  | .handleRead result => s.conn.closesOnRead result = false
  | .runFunctor result =>
      s.conn.functors.head? ≠ some .connectDestroyed ∧ result.givesUp = false
  | .send _ result => result.givesUp = false
  | .sendFile _ _ _ result _ => result.givesUp = false
  | .destroyServer inLoopThread => inLoopThread = false
  | _ => True

/-- A step that calls `shutdownWrite` finds no accepted bytes waiting outside the output
buffer, and `sendFileInLoop` does not run with bytes to send in kDisconnecting. -/
def Drained (s : Session) : SessionEvent → Prop
  | .runFunctor _ =>
      match s.conn.functors.head? with
      | some (.sendFileInLoop file offset count) =>
          s.conn.state = .kDisconnecting → fileSegment file offset count = []
      | some .shutdownInLoop =>
          s.conn.channel.isWriting = false → s.conn.queuedWork s.calls = []
      | _ => True
  | .handleWrite results =>
      s.conn.state = .kDisconnecting → s.conn.channel.isWriting = true →
        TcpConnection.drains s.conn.readable.length results = true →
        s.conn.queuedWork s.calls = []
  | .shutdown =>
      s.conn.state = .kConnected → s.conn.channel.isWriting = false →
        s.conn.queuedWork s.calls = []
  | .sendFile file offset count _ (some index) =>
      s.calls[index]? = some .storeDisconnecting → fileSegment file offset count = []
  | _ => True

instance (s : Session) (event : SessionEvent) : Decidable (s.Drained event) := by
  unfold Drained
  split
  · split <;> infer_instance
  all_goals infer_instance

instance (s : Session) (event : SessionEvent) : Decidable (s.Outputs event) := by
  unfold Outputs
  split <;> infer_instance

variable {s after : Session} {held : List UInt8}

theorem split_calls {calls : List UserCall} {index : Nat} {call : UserCall}
    (found : calls[index]? = some call) :
    calls = calls.take index ++ call :: calls.drop (index + 1) := by
  obtain ⟨inside, rfl⟩ := List.getElem?_eq_some_iff.mp found
  rw [List.getElem_cons_drop, List.take_append_drop]

/-- A step of a call moves its bytes from the call to the loop's queue. -/
theorem advance_balanced (balanced : s.conn.Balanced s.calls held) {index : Nat}
    (taken : s.advance index = .ok after) :
    after.conn.Balanced after.calls held ∧
      (after.conn.state = s.conn.state ∨ s.calls[index]? = some .storeDisconnecting) := by
  obtain ⟨call, found, rfl⟩ := advance_ok taken
  have sound := balanced.sound
  have split := split_calls found
  have before : ∀ byte, (s.conn.queuedWork s.calls).count byte =
      (s.conn.queuedWork (s.calls.take index ++ s.calls.drop (index + 1))).count byte +
        call.work.count byte := by
    intro byte
    rw [← TcpConnection.queuedWork_calls, ← split]
  have queued : ∀ functor : Functor, functor.work = call.work →
      (s.conn.queueInLoop functor).Balanced
        (s.calls.take index ++ [] ++ s.calls.drop (index + 1)) held := by
    intro functor same
    refine balanced.of_idle (sound.queueInLoop _) rfl rfl rfl fun byte => ?_
    rw [before, TcpConnection.queuedWork_queueInLoop, List.append_nil, same]
  cases call with
  | queueSend data => exact ⟨queued _ rfl, Or.inl rfl⟩
  | queueSendFile file offset count => exact ⟨queued _ rfl, Or.inl rfl⟩
  | storeDisconnecting =>
      refine ⟨balanced.of_idle (sound.setState _) rfl rfl rfl fun byte => ?_, Or.inr found⟩
      have same := TcpConnection.queuedWork_calls (s.conn.setState .kDisconnecting)
        (s.calls.take index) (s.calls.drop (index + 1)) .queueShutdown byte
      simp only [UserCall.advance, Option.toList_some, List.append_assoc, List.singleton_append]
      rw [same, before]
      rfl
  | queueShutdown => exact ⟨queued _ rfl, Or.inl rfl⟩

theorem step_balanced {event : SessionEvent} (balanced : s.conn.Balanced s.calls [])
    (outputs : s.Outputs event) (drained : s.Drained event) (taken : s.step event = .ok after) :
    after.conn.Balanced after.calls [] := by
  have sound := balanced.sound
  cases step_inv taken with
  | handleEvent revents idle between seen => exact balanced
  | handleClose rest conn waiting closed => exact outputs.elim
  | handleError rest conn waiting closed => exact outputs.elim
  | handleRead result rest conn again waiting read => exact balanced.readOnce outputs read
  | handleWrite results rest conn waiting wrote => exact balanced.handleWrite drained wrote
  | doPendingFunctors idle between => exact balanced.swap between
  | runFunctor result functor functors conn batch ran =>
      obtain ⟨noDestroy, kept⟩ := outputs
      simp only [Drained, batch, List.head?_cons] at drained noDestroy
      have popped := balanced.pop batch
      cases functor with
      | connectEstablished => exact popped.connectEstablished ran
      | connectDestroyed => exact absurd rfl noDestroy
      | sendInLoop data => exact popped.sendInLoop kept ran
      | sendFileInLoop name offset count =>
          cases ran
          refine popped.sendFileInLoop kept ?_
          by_cases leaving : s.conn.state = .kDisconnecting
          · exact Or.inr (drained leaving)
          · exact Or.inl leaving
      | shutdownInLoop =>
          cases ran
          refine popped.shutdownInLoop fun idle => ?_
          have none := drained idle
          simpa [TcpConnection.queuedWork, batch, TcpConnection.setBatch, Functor.work] using none
      | writeComplete =>
          cases ran
          exact popped
      | highWaterMark pending =>
          cases ran
          exact popped
  | retrieve len =>
      exact balanced.of_idle (sound.retrieveInput len) rfl rfl rfl fun _ => rfl
  | send data result conn up ran => exact (balanced.accept data.bytes).sendInLoop outputs ran
  | sendRefused data result down => exact balanced
  | sendFile file offset count result between middle up other =>
      have accepted := balanced.accept (fileSegment file offset count)
      cases between with
      | none =>
          cases other
          refine accepted.sendFileInLoop outputs (Or.inl ?_)
          show s.conn.state ≠ .kDisconnecting
          rw [up]
          decide
      | some index =>
          obtain ⟨moved, state⟩ :=
            advance_balanced (show (s.accept (fileSegment file offset count)).conn.Balanced
              (s.accept (fileSegment file offset count)).calls _ from accepted) other
          refine moved.sendFileInLoop outputs ?_
          rcases state with same | stores
          · refine Or.inl ?_
            rw [same]
            show s.conn.state ≠ .kDisconnecting
            rw [up]
            decide
          · exact Or.inr (drained stores)
  | sendFileRefused file offset count result between down => exact balanced
  | shutdown up =>
      have leaving : (s.conn.setState .kDisconnecting).Balanced s.calls [] :=
        balanced.of_idle (sound.setState _) rfl rfl rfl fun _ => rfl
      exact leaving.shutdownInLoop (drained up)
  | shutdownRefused down => exact balanced
  | other call up first => exact balanced.begin call
  | advance index _ moved => exact (advance_balanced balanced moved).1
  | storeOverwritten index found down =>
      refine balanced.of_idle sound rfl rfl rfl fun byte => ?_
      obtain ⟨inside, -⟩ := List.getElem?_eq_some_iff.mp found
      have before := TcpConnection.queuedWork_calls s.conn (s.calls.take index)
        (s.calls.drop (index + 1)) .storeDisconnecting byte
      rw [← split_calls found] at before
      rw [List.set_eq_take_append_cons_drop, if_pos inside, TcpConnection.queuedWork_calls, before]
      rfl
  | removeConnectionInLoop closed =>
      refine balanced.of_idle (sound.queueInLoop _) rfl rfl rfl fun byte => ?_
      rw [TcpConnection.queuedWork_queueInLoop]
      rfl
  | destroyHere conn tabled idle ran => cases outputs
  | destroyElsewhere tabled =>
      refine balanced.of_idle (sound.queueInLoop _) rfl rfl rfl fun byte => ?_
      rw [TcpConnection.queuedWork_queueInLoop]
      rfl

theorem start_balanced (config : Config) :
    (start config).conn.Balanced (start config).calls [] := by
  refine ⟨established_sound config, established_watched config, ?_, ?_⟩
  · intro byte
    have empty : (start config).conn.readable = [] := Block.window_empty _ _
    rw [empty]
    rfl
  · exact AtEach.of_unmarked (by simp [TcpConnection.visible, start, established])

/-- In every run whose steps meet the condition, the write side is closed only after
every accepted byte has been handed to the kernel. -/
theorem shutdownWrite_graceful (config : Config) (events : List SessionEvent) (s : Session)
    (outputs : Guarded step Outputs (start config) events)
    (drained : Guarded step Drained (start config) events)
    (reached : run step (start config) events = .ok s) : Graceful s.conn.trace := by
  have balanced := run_preserves (fun s : Session => s.conn.Balanced s.calls [])
    (fun _ _ _ balanced guarded taken => step_balanced balanced guarded.1 guarded.2 taken)
    (start_balanced config) (outputs.and drained) reached
  exact balanced.trace_graceful

/-- A send that is cut short, then shutdown, then the write that drains the rest. -/
theorem shutdownWrite_graceful_shortWrite :
    ∃ s, run step (start plainConfig) [.send ⟨[1, 2], by decide⟩ (.count 1), .shutdown,
        .handleEvent EPOLLOUT, .handleWrite [.count 1]] = .ok s ∧
      .shutdownWrite ∈ s.conn.trace ∧ Graceful s.conn.trace := by
  obtain ⟨s, reached, closed⟩ := (map_ok_iff _ _ _).mp
    (show (run step (start plainConfig) [.send ⟨[1, 2], by decide⟩ (.count 1), .shutdown,
      .handleEvent EPOLLOUT, .handleWrite [.count 1]]).map
      (fun s => decide (.shutdownWrite ∈ s.conn.trace)) = .ok true by decide +kernel)
  exact ⟨s, reached, of_decide_eq_true closed, shutdownWrite_graceful plainConfig _ s
    (by decide +kernel) (by decide +kernel) reached⟩

/-- A file sent in part and `shutdown`: the write side is closed at once, and the rest of
the file is never sent. -/
theorem sendFileThenShutdown_not_graceful :
    ¬ ∀ (config : Config) (events : List SessionEvent) (s : Session),
      Guarded step Outputs (start config) events →
        run step (start config) events = .ok s → Graceful s.conn.trace := by
  intro graceful
  obtain ⟨s, reached, trace⟩ := (map_ok_iff _ _ _).mp
    (show (run step (start plainConfig) [.sendFile [1, 2] 0 2 (.count 1) none, .shutdown]).map
      (fun s => s.conn.trace) = .ok [.shutdownWrite, .queueInLoop (.sendFileInLoop [1, 2] 1 1),
        .sendfile [1], .accept [1, 2], .connectionCallback true] by decide +kernel)
  have all := graceful plainConfig _ s (by decide +kernel) reached
  rw [trace] at all
  have lengths := (all.2 rfl).length_eq
  simp [Effect.handed, Effect.accepted] at lengths

end Session

end KamaWebserver
