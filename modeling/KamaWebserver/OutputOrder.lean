import KamaWebserver.Session

set_option autoImplicit false

namespace KamaWebserver

open Outcome Trace Transition

namespace TcpConnection

/-- The bytes of files that wait in the loop's queue, the batch being run first. -/
def fileWork (c : TcpConnection) : List UInt8 :=
  Functor.workOf c.functors ++ Functor.workOf c.pendingFunctors

/-- What will be handed over next, in the order the loop gets to it: while output is
buffered, a file of the current batch is queued again behind the others. -/
def upcoming (c : TcpConnection) : List UInt8 :=
  if c.readable = [] then c.fileWork
  else c.readable ++ Functor.workOf c.pendingFunctors ++ Functor.workOf c.functors

/-- The accepted bytes are those handed over and those coming up, in call order. -/
structure Ordered (c : TcpConnection) : Prop where
  sound : c.Sound
  watched : c.Watched
  connected : c.state = .kConnected
  own : ∀ functor ∈ c.functors ++ c.pendingFunctors, functor.isOutput = true
  order : stream Effect.handed c.trace ++ c.upcoming = stream Effect.accepted c.trace

variable {c after : TcpConnection}

theorem Ordered.direct_iff (ordered : c.Ordered) : c.canWriteDirectly = true ↔ c.readable = [] := by
  rw [canWriteDirectly_iff ordered.sound]
  have watched := ordered.watched
  unfold Watched at watched
  constructor
  · exact fun direct => direct.2
  · intro empty
    refine ⟨?_, empty⟩
    rw [← Bool.not_eq_true, watched]
    exact fun some => some empty

/-- A step of the sending functions keeps the order when what it hands over and leaves
upcoming continues what was accepted. -/
theorem Ordered.extends (ordered : c.Ordered) {left : List UInt8} {effects : List Effect}
    (extended : c.Extends after left effects) (watched : after.Watched)
    (order : stream Effect.handed effects ++ after.upcoming =
      c.upcoming ++ stream Effect.accepted effects) : after.Ordered := by
  obtain ⟨added, queued, -, own⟩ := extended.pending
  refine ⟨extended.sound, watched, extended.state.trans ordered.connected, ?_, ?_⟩
  · intro functor inside
    rw [extended.functors, queued, ← List.append_assoc] at inside
    rcases List.mem_append.mp inside with old | new
    · exact ordered.own functor old
    · exact own functor new
  · rw [extended.stream _ fun _ => rfl, extended.stream _ fun _ => rfl, List.append_assoc, order,
      ← List.append_assoc, ordered.order]

theorem Extends.workOf_pending {left : List UInt8} {effects : List Effect}
    (extended : c.Extends after left effects) :
    Functor.workOf after.pendingFunctors = Functor.workOf c.pendingFunctors ++ left := by
  obtain ⟨added, queued, work, -⟩ := extended.pending
  rw [queued, Functor.workOf_append, work]

/-- A send keeps the order when no file waits or it sends nothing. -/
theorem Ordered.send (ordered : c.Ordered) {data : ByteString} {result : IoResult}
    (kept : result.givesUp = false) (inOrder : data.bytes = [] ∨ c.fileWork = [])
    (ran : (c.emit (.accept data.bytes)).sendInLoop data result = .ok after) :
    after.Ordered := by
  have started := emit_extends ordered.sound (.accept data.bytes) rfl
  by_cases direct : c.canWriteDirectly = true
  · have empty := ordered.direct_iff.mp direct
    obtain ⟨extended, watched, bytes⟩ :=
      (sendInLoop_direct started.sound direct data result).of_ok ran
    have whole := started.trans extended
    have all := bytes kept
    refine ordered.extends whole watched ?_
    have pending := whole.workOf_pending
    simp only [List.append_nil] at pending
    simp only [upcoming, fileWork, whole.functors, pending, empty, ↓reduceIte]
    rcases inOrder with nothing | none
    · rw [nothing] at all
      obtain ⟨sent, rest⟩ := List.append_eq_nil_iff.mp all
      simp [Effect.handed, Effect.accepted, nothing, rest]
    · obtain ⟨batch, queue⟩ := List.append_eq_nil_iff.mp none
      have next : (if after.readable = [] then [] else after.readable) = after.readable := by
        split
        · rename_i rest
          exact rest.symm
        · rfl
      simp only [batch, queue, List.append_nil, next]
      simpa [Effect.handed, Effect.accepted] using all
  · have some : c.readable ≠ [] := fun empty => direct (ordered.direct_iff.mpr empty)
    rw [Bool.not_eq_true] at direct
    obtain ⟨extended, bytes, writing⟩ :=
      (sendInLoop_buffered started.sound direct data result).of_ok ran
    have whole := started.trans extended
    have held : after.readable = c.readable ++ data.bytes := bytes
    have more : c.readable ++ data.bytes ≠ [] := by
      simp [some]
    refine ordered.extends whole ?_ ?_
    · unfold Watched
      rw [writing, held]
      exact iff_of_true (Or.inl (ordered.watched.mpr some)) more
    · have pending := whole.workOf_pending
      simp only [List.append_nil] at pending
      simp only [upcoming, whole.functors, pending, held, some, more, ↓reduceIte]
      rcases inOrder with nothing | none
      · simp [Effect.handed, Effect.accepted, nothing]
      · obtain ⟨batch, queue⟩ := List.append_eq_nil_iff.mp none
        simp [Effect.handed, Effect.accepted, batch, queue]

theorem Ordered.connected_open (ordered : c.Ordered) : c.state ≠ .kDisconnecting := by
  rw [ordered.connected]
  decide

/-- What `sendFileInLoop` does to a connection in kConnected whose kernel does not give up. -/
theorem sendFileInLoop_moves (sound : c.Sound) (open' : c.state ≠ .kDisconnecting)
    (file : List UInt8) (offset count : Nat) {result : IoResult} (kept : result.givesUp = false) :
    ∃ left effects, c.Extends (c.sendFileInLoop file offset count result) left effects ∧
      stream Effect.accepted effects = [] ∧
      stream Effect.handed effects =
        (if c.canWriteDirectly then result.accepted (fileSegment file offset count) else []) ∧
      stream Effect.handed effects ++ left = fileSegment file offset count := by
  obtain ⟨left, extended, moved⟩ := sendFileInLoop_extends sound file offset count result
  refine ⟨left, _, extended, stream_eq_nil fun effect inside => ?_,
    fileEffects_handed c _ result open', moved (Or.inl open') kept⟩
  exact Effect.accepted_of_isOutput (fileEffects_isOutput c _ result effect inside)

/-- A file keeps the order when it is empty, when it is queued behind the batch's files,
or when nothing waits before a direct transfer. -/
theorem Ordered.sendFile (ordered : c.Ordered) {file : List UInt8} {offset count : Nat}
    {result : IoResult} (kept : result.givesUp = false)
    (inOrder : fileSegment file offset count = [] ∨
      if c.canWriteDirectly then
        c.fileWork = [] ∨ result.accepted (fileSegment file offset count) = []
      else Functor.workOf c.functors = []) :
    ((c.emit (.accept (fileSegment file offset count))).sendFileInLoop file offset count
      result).Ordered := by
  have started := emit_extends ordered.sound (.accept (fileSegment file offset count)) rfl
  obtain ⟨left, effects, extended, accepted, handed, split⟩ :=
    sendFileInLoop_moves started.sound ordered.connected_open file offset count kept
  have whole := started.trans extended
  obtain ⟨readable, channel⟩ := sendFileInLoop_keeps
    (c.emit (.accept (fileSegment file offset count))) file offset count result
  have held : TcpConnection.readable (sendFileInLoop
      (c.emit (.accept (fileSegment file offset count))) file offset count result) =
        c.readable := readable
  refine ordered.extends whole ?_ ?_
  · unfold Watched
    rw [channel, held]
    exact ordered.watched
  · have pending := whole.workOf_pending
    have same : (c.emit (.accept (fileSegment file offset count))).canWriteDirectly =
        c.canWriteDirectly := rfl
    rw [same] at handed
    simp only [List.nil_append] at pending
    simp only [upcoming, fileWork, whole.functors, pending, held, stream_append, accepted,
      stream_cons, stream_nil, Effect.accepted, Effect.handed, List.nil_append, List.append_nil]
    by_cases direct : c.canWriteDirectly = true
    · simp only [ordered.direct_iff.mp direct, ↓reduceIte]
      simp only [direct, ↓reduceIte] at handed inOrder
      rcases inOrder with nothing | none | stalled
      · rw [nothing] at split ⊢
        obtain ⟨sent, rest⟩ := List.append_eq_nil_iff.mp split
        simp [sent, rest]
      · obtain ⟨batch, queue⟩ := List.append_eq_nil_iff.mp none
        simp [batch, queue, split]
      · rw [handed, stalled, List.nil_append] at split
        simp [handed, stalled, split]
    · have some : c.readable ≠ [] := fun empty => direct (ordered.direct_iff.mpr empty)
      simp only [direct, Bool.false_eq_true, ↓reduceIte] at handed inOrder
      rw [handed, List.nil_append] at split
      simp only [some, ↓reduceIte, handed, split, List.nil_append]
      rcases inOrder with nothing | none
      · simp [nothing]
      · simp [none]

/-- Between batches the buffered output comes first. -/
theorem upcoming_of_no_batch (between : c.functors = []) :
    c.upcoming = c.readable ++ Functor.workOf c.pendingFunctors := by
  unfold upcoming fileWork
  split
  · rename_i empty
    simp [between, empty]
  · simp [between]

theorem Ordered.handleWrite (ordered : c.Ordered) (between : c.functors = [])
    {results : List IoResult} (wrote : c.handleWrite results = .ok after) : after.Ordered := by
  obtain ⟨next, effects, returned, extended, shown, -, handed, watched, -⟩ :=
    handleWrite_ok ordered.sound results
  cases returned.symm.trans wrote
  have accepted := Effect.stream_accepted shown
  refine ordered.extends extended (watched ordered.watched) ?_
  rw [upcoming_of_no_batch between, upcoming_of_no_batch (extended.functors.trans between),
    extended.workOf_pending, accepted, List.append_nil, List.append_nil, ← List.append_assoc,
    handed]

theorem Ordered.swap (ordered : c.Ordered) (between : c.functors = []) :
    c.swapFunctors.Ordered := by
  refine ⟨ordered.sound.swapFunctors, ordered.watched, ordered.connected, ?_, ?_⟩
  · have own := ordered.own
    rw [between] at own
    simpa [swapFunctors] using own
  · have order := ordered.order
    have kept : c.swapFunctors.upcoming = c.upcoming := by
      unfold upcoming fileWork
      rw [between]
      split <;> simp_all [swapFunctors]
    rw [kept]
    exact order

/-- A file of the batch keeps the order when output is buffered, when all of it is handed
over, or when nothing else waits. -/
theorem Ordered.runFile (ordered : c.Ordered) {file : List UInt8} {offset count : Nat}
    {functors : List Functor} (batch : c.functors = .sendFileInLoop file offset count :: functors)
    {result : IoResult} (kept : result.givesUp = false)
    (inOrder : c.canWriteDirectly = true →
      result.accepted (fileSegment file offset count) = fileSegment file offset count ∨
        Functor.workOf functors ++ Functor.workOf c.pendingFunctors = []) :
    ((c.setBatch functors).sendFileInLoop file offset count result).Ordered := by
  have popped := ordered.sound.setBatch functors
  obtain ⟨left, effects, extended, accepted, handed, split⟩ :=
    sendFileInLoop_moves popped ordered.connected_open file offset count kept
  obtain ⟨readable, channel⟩ := sendFileInLoop_keeps (c.setBatch functors) file offset count result
  have held : TcpConnection.readable (sendFileInLoop (c.setBatch functors) file offset count
      result) = c.readable := readable
  obtain ⟨added, queued, -, own⟩ := extended.pending
  refine ⟨extended.sound, ?_, extended.state.trans ordered.connected, ?_, ?_⟩
  · unfold Watched
    rw [channel, held]
    exact ordered.watched
  · intro functor inside
    have before := ordered.own
    rw [batch] at before
    rw [extended.functors, queued, ← List.append_assoc] at inside
    rcases List.mem_append.mp inside with old | new
    · exact before functor (List.mem_cons_of_mem _ old)
    · exact own functor new
  · have next : stream Effect.handed effects ++
        TcpConnection.upcoming (sendFileInLoop (c.setBatch functors) file offset count result) =
          c.upcoming := by
      have pending := extended.workOf_pending
      have queue : (c.setBatch functors).pendingFunctors = c.pendingFunctors := rfl
      have same : (c.setBatch functors).canWriteDirectly = c.canWriteDirectly := rfl
      have rest : (c.setBatch functors).functors = functors := rfl
      rw [same] at handed
      rw [queue] at pending
      simp only [upcoming, fileWork, extended.functors, rest, pending, held, batch,
        Functor.workOf_cons, Functor.work]
      by_cases direct : c.canWriteDirectly = true
      · simp only [ordered.direct_iff.mp direct, ↓reduceIte]
        simp only [direct, ↓reduceIte] at handed
        rcases inOrder direct with all | none
        · rw [handed, all] at split ⊢
          have rest : left = [] := List.append_cancel_left (split.trans (List.append_nil _).symm)
          simp [rest]
        · obtain ⟨empty, idle⟩ := List.append_eq_nil_iff.mp none
          simp [empty, idle, split]
      · have some : c.readable ≠ [] := fun empty => direct (ordered.direct_iff.mpr empty)
        simp only [direct, Bool.false_eq_true, ↓reduceIte] at handed
        rw [handed, List.nil_append] at split
        simp [some, handed, split]
    rw [extended.stream _ fun _ => rfl, extended.stream _ fun _ => rfl, accepted,
      List.append_nil, List.append_assoc, next]
    exact ordered.order

/-- A notice leaves the batch. -/
theorem Ordered.runNotice (ordered : c.Ordered) {functor : Functor} {functors : List Functor}
    (batch : c.functors = functor :: functors) (idle : functor.work = []) :
    (c.setBatch functors).Ordered := by
  refine ⟨ordered.sound.setBatch functors, ordered.watched, ordered.connected, ?_, ?_⟩
  · intro next inside
    have own := ordered.own
    rw [batch] at own
    exact own next (List.mem_cons_of_mem _ inside)
  · have order := ordered.order
    simp only [upcoming, fileWork, batch, Functor.workOf_cons, idle, List.nil_append] at order
    exact order

theorem Ordered.readOnce (ordered : c.Ordered) {result : ReadResult} {again : Bool}
    (goes : c.closesOnRead result = false) (read : c.readOnce result = .ok (after, again)) :
    after.Ordered := by
  obtain ⟨sound, channel, state, outputBuffer, functors, pending, trace⟩ :=
    (readOnce_keeps ordered.sound result goes).of_ok read
  dsimp only at channel state outputBuffer functors pending trace
  have order := ordered.order
  refine ⟨sound, ?_, state.trans ordered.connected, ?_, ?_⟩
  · unfold Watched readable
    rw [channel, outputBuffer]
    exact ordered.watched
  · rw [functors, pending]
    exact ordered.own
  · simp only [upcoming, fileWork, readable, outputBuffer, functors, pending] at order ⊢
    rcases trace with same | grown
    · rw [same]
      exact order
    · simpa [grown, Effect.handed, Effect.accepted] using order

end TcpConnection

namespace Session

/-- Sends and files of the loop's own thread, writable events and functor batches on a
connection that stays connected, where no transfer ends in EPIPE or ECONNRESET. -/
def Mixed (s : Session) : SessionEvent → Prop
  | .handleEvent _ => True
  | .handleRead result => s.conn.closesOnRead result = false
  | .handleWrite _ => True
  | .doPendingFunctors => True
  | .runFunctor result => result.givesUp = false
  | .retrieve _ => True
  | .send _ result => result.givesUp = false
  | .sendFile _ _ _ result between => result.givesUp = false ∧ between = none
  | _ => False

/-- A file segment that runs while nothing is pending is transferred whole, or it is the
only one waiting. -/
def RunsInOrder (c : TcpConnection) (result : IoResult) : List Functor → Prop
  | .sendFileInLoop file offset count :: functors =>
      c.canWriteDirectly = true →
        result.accepted (fileSegment file offset count) = fileSegment file offset count ∨
          Functor.workOf functors ++ Functor.workOf c.pendingFunctors = []
  | _ => True

/-- A send finds no file waiting; a file is not overtaken by the files of the current
batch nor by what its own direct transfer leaves behind. -/
def InOrder (s : Session) : SessionEvent → Prop
  | .send data _ => data.bytes = [] ∨ s.conn.fileWork = []
  | .sendFile file offset count result _ =>
      fileSegment file offset count = [] ∨
        if s.conn.canWriteDirectly then
          s.conn.fileWork = [] ∨ result.accepted (fileSegment file offset count) = []
        else Functor.workOf s.conn.functors = []
  | .runFunctor result => RunsInOrder s.conn result s.conn.functors
  | _ => True

instance (s : Session) : ∀ event, Decidable (s.Mixed event)
  | .handleRead result => decEq (s.conn.closesOnRead result) false
  | .runFunctor result => decEq result.givesUp false
  | .send _ result => decEq result.givesUp false
  | .sendFile _ _ _ result between =>
      inferInstanceAs (Decidable (result.givesUp = false ∧ between = none))
  | .handleEvent _ | .handleWrite _ | .doPendingFunctors | .retrieve _ => isTrue trivial
  | .handleClose | .handleError | .shutdown | .other _ | .advance _ | .storeOverwritten _
  | .removeConnectionInLoop | .destroyServer _ => isFalse id

instance (c : TcpConnection) (result : IoResult) :
    ∀ functors, Decidable (RunsInOrder c result functors)
  | .sendFileInLoop file offset count :: functors =>
      inferInstanceAs (Decidable (c.canWriteDirectly = true →
        result.accepted (fileSegment file offset count) = fileSegment file offset count ∨
          Functor.workOf functors ++ Functor.workOf c.pendingFunctors = []))
  | [] | .connectEstablished :: _ | .connectDestroyed :: _ | .sendInLoop _ :: _
  | .shutdownInLoop :: _ | .writeComplete :: _ | .highWaterMark _ :: _ => isTrue trivial

instance (s : Session) : ∀ event, Decidable (s.InOrder event)
  | .send data _ => inferInstanceAs (Decidable (data.bytes = [] ∨ s.conn.fileWork = []))
  | .sendFile file offset count result _ =>
      inferInstanceAs (Decidable (fileSegment file offset count = [] ∨
        if s.conn.canWriteDirectly then
          s.conn.fileWork = [] ∨ result.accepted (fileSegment file offset count) = []
        else Functor.workOf s.conn.functors = []))
  | .runFunctor result =>
      inferInstanceAs (Decidable (RunsInOrder s.conn result s.conn.functors))
  | .handleEvent _ | .handleRead _ | .handleWrite _ | .doPendingFunctors | .retrieve _
  | .handleClose | .handleError | .shutdown | .other _ | .advance _ | .storeOverwritten _
  | .removeConnectionInLoop | .destroyServer _ => isTrue trivial

/-- The connection's output is in order, and handlers run between batches. -/
structure InSequence (s : Session) : Prop where
  ordered : s.conn.Ordered
  between : s.handlers ≠ [] → s.conn.functors = []

variable {s after : Session}

theorem step_inSequence {event : SessionEvent} (inv : s.InSequence) (mixed : s.Mixed event)
    (inOrder : s.InOrder event) (taken : s.step event = .ok after) : after.InSequence := by
  obtain ⟨ordered, between⟩ := inv
  cases step_inv taken with
  | handleEvent revents idle batch seen => exact ⟨ordered, fun _ => batch⟩
  | handleClose rest conn waiting closed => exact mixed.elim
  | handleError rest conn waiting closed => exact mixed.elim
  | handleRead result rest conn again waiting read =>
      refine ⟨ordered.readOnce mixed read, fun _ => ?_⟩
      obtain ⟨-, -, -, -, functors, -⟩ :=
        (TcpConnection.readOnce_keeps ordered.sound result mixed).of_ok read
      exact functors.trans (between (by simp [waiting]))
  | handleWrite results rest conn waiting wrote =>
      have idle := between (by simp [waiting])
      refine ⟨ordered.handleWrite idle wrote, fun _ => ?_⟩
      obtain ⟨next, effects, returned, extended, -⟩ :=
        TcpConnection.handleWrite_ok ordered.sound results
      cases returned.symm.trans wrote
      exact extended.functors.trans idle
  | doPendingFunctors idle batch =>
      exact ⟨ordered.swap batch, fun some => absurd idle some⟩
  | runFunctor result functor functors conn batch ran =>
      have idle : s.handlers = [] := by
        by_contra some
        have none := between some
        rw [batch] at none
        cases none
      have own := ordered.own functor (by simp [batch])
      refine ⟨?_, fun some => absurd idle some⟩
      cases functor with
      | sendFileInLoop file offset count =>
          cases ran
          simp only [InOrder, RunsInOrder, batch] at inOrder
          exact ordered.runFile batch mixed inOrder
      | writeComplete =>
          cases ran
          exact ordered.runNotice batch rfl
      | highWaterMark pending =>
          cases ran
          exact ordered.runNotice batch rfl
      | connectEstablished => cases own
      | connectDestroyed => cases own
      | sendInLoop data => cases own
      | shutdownInLoop => cases own
  | retrieve len =>
      exact ⟨⟨ordered.sound.retrieveInput len, ordered.watched, ordered.connected, ordered.own,
        ordered.order⟩, between⟩
  | send data result conn up ran =>
      refine ⟨ordered.send mixed inOrder ran, fun some => ?_⟩
      obtain ⟨effects, extended, -⟩ :=
        (TcpConnection.sendInLoop_spec (ordered.sound.emit _) data result).of_ok ran
      exact extended.functors.trans (between some)
  | sendRefused data result down => exact absurd ordered.connected down
  | sendFile file offset count result moment middle up other =>
      obtain ⟨kept, rfl⟩ := mixed
      cases other
      refine ⟨ordered.sendFile kept inOrder, fun some => ?_⟩
      obtain ⟨left, extended, -⟩ := TcpConnection.sendFileInLoop_extends
        (ordered.sound.emit (.accept (fileSegment file offset count))) file offset count result
      exact extended.functors.trans (between some)
  | sendFileRefused file offset count result moment down => exact absurd ordered.connected down
  | shutdown up => exact mixed.elim
  | shutdownRefused down => exact mixed.elim
  | other call up first => exact mixed.elim
  | advance index _ moved => exact mixed.elim
  | storeOverwritten index found down => exact mixed.elim
  | removeConnectionInLoop closed => exact mixed.elim
  | destroyHere conn tabled idle ran => exact mixed.elim
  | destroyElsewhere tabled => exact mixed.elim

theorem start_inSequence (config : Config) : (start config).InSequence := by
  refine ⟨⟨established_sound config, established_watched config, rfl, ?_, ?_⟩, fun some => ?_⟩
  · simp [start, established, TcpConnection.create]
  · have empty : (start config).conn.readable = [] := Block.window_empty _ _
    simp only [TcpConnection.upcoming, empty, ↓reduceIte]
    rfl
  · exact absurd rfl some

/-- In every run whose steps meet the condition, the bytes handed to the kernel are a
prefix of the payloads in call order. -/
theorem handed_prefix_accepted (config : Config) (events : List SessionEvent) (s : Session)
    (mixed : Guarded step Mixed (start config) events)
    (inOrder : Guarded step InOrder (start config) events)
    (reached : run step (start config) events = .ok s) :
    stream Effect.handed s.conn.trace <+: stream Effect.accepted s.conn.trace := by
  have inv := run_preserves InSequence
    (fun _ _ _ inv guarded taken => step_inSequence inv guarded.1 guarded.2 taken)
    (start_inSequence config) (mixed.and inOrder) reached
  exact ⟨_, inv.ordered.order⟩

/-- Two files in a row, the first sent in part behind buffered output. -/
theorem handed_prefix_accepted_files :
    ∃ s, run step (start plainConfig) [.send ⟨[1, 2], by decide⟩ (.count 1),
        .sendFile [3, 4] 0 2 (.count 0) none, .sendFile [5] 0 1 (.count 0) none,
        .handleEvent EPOLLOUT, .handleWrite [.count 1], .doPendingFunctors,
        .runFunctor (.count 2), .runFunctor (.count 1)] = .ok s ∧
      stream Effect.handed s.conn.trace = [1, 2, 3, 4, 5] ∧
      stream Effect.handed s.conn.trace <+: stream Effect.accepted s.conn.trace := by
  obtain ⟨s, reached, handed⟩ := (map_ok_iff _ _ _).mp
    (show (run step (start plainConfig) [.send ⟨[1, 2], by decide⟩ (.count 1),
      .sendFile [3, 4] 0 2 (.count 0) none, .sendFile [5] 0 1 (.count 0) none,
      .handleEvent EPOLLOUT, .handleWrite [.count 1], .doPendingFunctors,
      .runFunctor (.count 2), .runFunctor (.count 1)]).map
      (fun s => stream Effect.handed s.conn.trace) = .ok [1, 2, 3, 4, 5] by decide +kernel)
  exact ⟨s, reached, handed, handed_prefix_accepted plainConfig _ s (by decide +kernel)
    (by decide +kernel) reached⟩

/-- A file sent in part, then a send: the string is written into the middle of the file. -/
theorem sendIntoFile_not_prefix :
    ¬ ∀ (config : Config) (events : List SessionEvent) (s : Session),
      Guarded step Mixed (start config) events → run step (start config) events = .ok s →
        stream Effect.handed s.conn.trace <+: stream Effect.accepted s.conn.trace := by
  intro always
  obtain ⟨s, reached, trace⟩ := (map_ok_iff _ _ _).mp
    (show (run step (start plainConfig) [.sendFile [1, 2] 0 2 (.count 1) none,
      .send ⟨[9], by decide⟩ (.count 1)]).map (fun s => s.conn.trace) =
        .ok [.write [9], .sendInLoop [9], .accept [9],
          .queueInLoop (.sendFileInLoop [1, 2] 1 1), .sendfile [1], .accept [1, 2],
          .connectionCallback true] by decide +kernel)
  have ordered := always plainConfig _ s (by decide +kernel) reached
  rw [trace] at ordered
  simp [Effect.handed, Effect.accepted] at ordered

end Session

end KamaWebserver
