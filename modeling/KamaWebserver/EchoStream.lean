import KamaWebserver.EchoServer

set_option autoImplicit false

namespace KamaWebserver

open Outcome Trace Transition

namespace EchoConnection

/-- The messages are what has been read, and whole responses, but for those given up, have gone
to the kernel or wait in the output buffer. -/
structure Echoes (e : EchoConnection) : Prop where
  sound : e.conn.Sound
  watched : e.conn.connected = true → e.conn.Watched
  input : e.messages.flatten ++ e.conn.inputBuffer.readable = e.received
  nonempty : ∀ msg ∈ e.messages, msg ≠ []
  counted : e.dropped ≤ e.answered ∧ e.answered ≤ e.messages.length
  output : stream Effect.handed e.conn.trace ++ e.conn.readable =
    (List.replicate (e.answered - e.dropped) EchoServer.response.bytes).flatten

/-- Between the handling of events the application has taken everything. -/
def Idle (e : EchoConnection) : Prop := e.Echoes ∧ e.conn.inputBuffer.readable = []

variable {e after : EchoConnection} {c : TcpConnection}

/-- The connection changes, but neither its input nor what it has put out. -/
theorem Echoes.of_quiet (echoes : e.Echoes) (sound : c.Sound)
    (watched : c.connected = true → c.Watched)
    (input : e.messages.flatten ++ c.inputBuffer.readable = after.received)
    (messages : after.messages = e.messages)
    (counts : after.answered = e.answered ∧ after.dropped = e.dropped)
    (output : stream Effect.handed c.trace ++ c.readable =
      stream Effect.handed e.conn.trace ++ e.conn.readable)
    (conn : after.conn = c) : after.Echoes := by
  subst conn
  refine ⟨sound, watched, ?_, ?_, ?_, ?_⟩
  · rw [messages]
    exact input
  · rw [messages]
    exact echoes.nonempty
  · rw [messages, counts.1, counts.2]
    exact echoes.counted
  · rw [output, counts.1, counts.2]
    exact echoes.output

/-- A close leaves what is buffered. -/
theorem of_switches {effects : List Effect} {next : TcpConnection}
    (switches : c.Switches next .kDisconnected effects)
    (silent : ∀ effect ∈ effects, effect.handed = []) :
    next.Sound ∧ (next.connected = true → next.Watched) ∧
      stream Effect.handed next.trace ++ next.readable =
        stream Effect.handed c.trace ++ c.readable := by
  refine ⟨switches.sound, fun up => ?_, ?_⟩
  · rw [TcpConnection.connected, switches.state] at up
    cases up
  · rw [switches.trace, stream_append, stream_eq_nil silent, List.append_nil,
      TcpConnection.readable, switches.outputBuffer]

theorem handleClose_quiet (sound : c.Sound) :
    ∃ next, c.handleClose = .ok next ∧ next.inputBuffer = c.inputBuffer ∧ next.Sound ∧
      (next.connected = true → next.Watched) ∧
      stream Effect.handed next.trace ++ next.readable =
        stream Effect.handed c.trace ++ c.readable := by
  obtain ⟨next, closed, switches, -⟩ := TcpConnection.handleClose_ok sound
  have input : c.KeepsInput (.ok next) := closed ▸ TcpConnection.keepsInput_handleClose c
  exact ⟨next, closed, input, of_switches switches (by simp [Effect.handed])⟩

/-- What readv delivers goes to the input buffer; the loop goes on if that is something. -/
structure Reads (c : TcpConnection) (result : ReadResult) (after : TcpConnection × Bool) :
    Prop where
  sound : after.1.Sound
  watched : after.1.connected = true → after.1.Watched
  input : after.1.inputBuffer.readable = c.inputBuffer.readable ++ delivered c result
  output : stream Effect.handed after.1.trace ++ after.1.readable =
    stream Effect.handed c.trace ++ c.readable
  again : after.2 = true ↔ delivered c result ≠ []

theorem reads_of_close (sound : c.Sound) {inputBuffer : Buffer} (valid : inputBuffer.Valid)
    {result : ReadResult} (none : delivered c result = [])
    (input : inputBuffer.readable = c.inputBuffer.readable ++ delivered c result) :
    Spec Buffer.Throws (Reads c result)
      ((TcpConnection.handleClose { c with inputBuffer }).map (·, false)) := by
  have sound' : TcpConnection.Sound { c with inputBuffer } :=
    ⟨valid, sound.output, sound.registered⟩
  obtain ⟨next, closed, same, kept, watched, output⟩ := handleClose_quiet sound'
  rw [closed]
  refine ⟨kept, watched, ?_, output, by simp [none]⟩
  show next.inputBuffer.readable = _
  rw [same]
  exact input

theorem readOnce_reads (sound : c.Sound) (watched : c.connected = true → c.Watched)
    (result : ReadResult) : Spec Buffer.Throws (Reads c result) (c.readOnce result) := by
  unfold TcpConnection.readOnce
  apply (Buffer.readFd_spec sound.input result).bind_of_ok
  intro ⟨inputBuffer, outcome⟩ read ⟨valid, bytes⟩
  dsimp only at bytes ⊢
  cases result with
  | data incoming =>
      have counted := Buffer.readFd_count read
      subst counted
      cases length : (c.inputBuffer.received incoming).length with
      | zero => exact reads_of_close sound valid (List.length_eq_zero_iff.mp length) bytes
      | succ n =>
          have some : c.inputBuffer.received incoming ≠ [] := by
            intro none
            rw [none] at length
            cases length
          refine ⟨⟨valid, sound.output, sound.registered⟩, watched, bytes, ?_, ?_⟩
          · simp [TcpConnection.emit, Effect.handed]
          · exact ⟨fun _ => some, fun _ => rfl⟩
  | error errno =>
      cases read
      cases errno with
      | EAGAIN => exact ⟨sound, watched, bytes, rfl, by simp [delivered]⟩
      | EPIPE => exact reads_of_close sound valid rfl bytes
      | ECONNRESET => exact reads_of_close sound valid rfl bytes
      | other code => exact reads_of_close sound valid rfl bytes

theorem readOnce_spec (echoes : e.Echoes) (result : ReadResult) :
    Spec Buffer.Throws (fun after => after.1.Echoes ∧
        after.1.conn.inputBuffer.readable =
          e.conn.inputBuffer.readable ++ delivered e.conn result ∧
        (after.2 = true ↔ delivered e.conn result ≠ []))
      (e.readOnce result) := by
  apply (readOnce_reads echoes.sound echoes.watched result).bind
  intro read reads
  refine ⟨echoes.of_quiet reads.sound reads.watched ?_ rfl ⟨rfl, rfl⟩ reads.output rfl,
    reads.input, reads.again⟩
  rw [reads.input, ← List.append_assoc, echoes.input]

/-- A direct write that fails for good sends nothing and buffers nothing. -/
theorem sendInLoop_givesUp (direct : c.canWriteDirectly = true) (data : ByteString)
    {result : IoResult} (givesUp : result.givesUp = true) :
    c.sendInLoop data result = .ok ((c.emit (.sendInLoop data.bytes)).emit (.write [])) := by
  cases result with
  | count n => cases givesUp
  | error errno =>
      have still : (c.emit (.sendInLoop data.bytes)).canWriteDirectly = true := direct
      simp only [TcpConnection.sendInLoop, still, if_true, IoResult.accepted]
      exact if_pos givesUp

/-- A send puts out all of its data or, on a connection that is down or an error that gives it
up, none. -/
theorem send_spec (sound : c.Sound) (watched : c.connected = true → c.Watched)
    (data : ByteString) (result : IoResult) :
    Spec Buffer.Throws (fun after => after.Sound ∧ (after.connected = true → after.Watched) ∧
        stream Effect.handed after.trace ++ after.readable =
          stream Effect.handed c.trace ++ c.readable ++
            if c.connected = true ∧ drops c result = false then data.bytes else [])
      (c.send data result) := by
  by_cases up : c.connected = true
  · have connected : c.state = .kConnected := by simpa [TcpConnection.connected] using up
    have sound' := sound.emit (.accept data.bytes)
    have watched' : (c.emit (.accept data.bytes)).Watched := watched up
    rw [TcpConnection.send, if_pos connected]
    cases dropped : drops c result with
    | true =>
        obtain ⟨⟨-, direct⟩, givesUp⟩ : (c.connected = true ∧ c.canWriteDirectly = true) ∧
            result.givesUp = true := by simpa [drops] using dropped
        have direct' : (c.emit (.accept data.bytes)).canWriteDirectly = true := direct
        rw [sendInLoop_givesUp direct' data givesUp]
        refine ⟨(sound'.emit _).emit _, fun _ => watched', ?_⟩
        simp [TcpConnection.emit, Effect.handed]
    | false =>
        have kept : (c.emit (.accept data.bytes)).canWriteDirectly = true →
            result.givesUp = false := by
          intro direct
          have direct' : c.canWriteDirectly = true := direct
          simpa [drops, up, direct'] using dropped
        apply (TcpConnection.sendInLoop_spec sound' data result).mono
        intro after outcome
        obtain ⟨effects, extended, -, -, rest⟩ := outcome
        obtain ⟨later, handed⟩ := rest watched' kept
        have accepts : stream Effect.handed (c.emit (.accept data.bytes)).trace =
            stream Effect.handed c.trace := by simp [TcpConnection.emit, Effect.handed]
        refine ⟨extended.sound, fun _ => later, ?_⟩
        rw [extended.stream _ fun _ => rfl, accepts, List.append_assoc, handed,
          if_pos ⟨up, rfl⟩, List.append_assoc]
        rfl
  · have down : c.state ≠ .kConnected := by simpa [TcpConnection.connected] using up
    rw [TcpConnection.send, if_neg down]
    refine ⟨sound, watched, ?_⟩
    rw [if_neg fun both => up both.1, List.append_nil]

/-- `onMessage` takes all there is and answers it once. -/
theorem onMessage_spec (echoes : e.Echoes) (some : e.conn.inputBuffer.readable ≠ [])
    (result : IoResult) : Spec Buffer.Throws Idle (e.onMessage result) := by
  have valid := echoes.sound.input
  have length := valid.readable_length
  unfold onMessage
  apply (Buffer.retrieveAsString_spec valid _ (Nat.le_refl _)).bind
  intro ⟨inputBuffer, msg⟩ ⟨valid', rest, taken⟩
  dsimp only at valid' rest taken ⊢
  rw [← length, List.drop_length] at rest
  rw [← length, List.take_length] at taken
  let taking : TcpConnection := { e.conn with inputBuffer }
  have sound : taking.Sound := ⟨valid', echoes.sound.output, echoes.sound.registered⟩
  have watched : taking.connected = true → taking.Watched := echoes.watched
  have input := TcpConnection.keepsInput_send taking EchoServer.response result
  apply (send_spec sound watched EchoServer.response result).bind_of_ok
  intro conn sent ⟨sound', watched', output⟩
  rw [sent] at input
  have empty : conn.inputBuffer.readable = [] := (congrArg Buffer.readable input).trans rest
  obtain ⟨fewer, few⟩ := echoes.counted
  refine ⟨⟨sound', watched', ?_, ?_, ?_, ?_⟩, empty⟩
  · show (e.messages ++ [msg]).flatten ++ conn.inputBuffer.readable = e.received
    rw [empty, taken, List.append_nil, List.flatten_append, List.flatten_singleton, echoes.input]
  · intro other inside
    rcases List.mem_append.mp inside with older | new
    · exact echoes.nonempty other older
    · rw [List.mem_singleton.mp new, taken]
      exact some
  · have more : (e.messages ++ [msg]).length = e.messages.length + 1 := by simp
    show (if drops taking result then e.dropped + 1 else e.dropped) ≤
        (if taking.connected then e.answered + 1 else e.answered) ∧
      (if taking.connected then e.answered + 1 else e.answered) ≤ (e.messages ++ [msg]).length
    rw [more]
    cases up : taking.connected with
    | true => cases drops taking result <;> simp <;> omega
    | false => simp [drops, up]; omega
  · show stream Effect.handed conn.trace ++ conn.readable = (List.replicate
      ((if taking.connected then e.answered + 1 else e.answered) -
        (if drops taking result then e.dropped + 1 else e.dropped)) _).flatten
    have before : stream Effect.handed taking.trace ++ taking.readable =
        (List.replicate (e.answered - e.dropped) EchoServer.response.bytes).flatten := echoes.output
    rw [output, before]
    cases up : taking.connected with
    | true =>
        cases dropped : drops taking result with
        | true => simp [Nat.add_sub_add_right]
        | false =>
            have one : e.answered + 1 - e.dropped = e.answered - e.dropped + 1 := by omega
            simp only [one, List.replicate_succ', List.flatten_append, List.flatten_singleton,
              and_self, if_true, Bool.false_eq_true, if_false]
    | false => simp [drops, up]

/-- Each turn of the loop ends with an empty input buffer. -/
theorem handleRead_spec (idle : e.Idle) (results : List (ReadResult × IoResult)) :
    Spec Buffer.Throws Idle (e.handleRead results) := by
  induction results generalizing e with
  | nil =>
      apply (readOnce_spec idle.1 (.error .EAGAIN)).bind
      intro read ⟨echoes, input, _⟩
      refine ⟨echoes, ?_⟩
      rw [input, idle.2]
      rfl
  | cons result results ih =>
      obtain ⟨read, write⟩ := result
      apply (readOnce_spec idle.1 read).bind
      intro ⟨next, again⟩ ⟨echoes, input, goes⟩
      cases again with
      | true =>
          have some : next.conn.inputBuffer.readable ≠ [] := by
            rw [input, idle.2]
            exact goes.mp rfl
          exact (onMessage_spec echoes some write).bind fun answered idle => ih idle
      | false =>
          have none : delivered e.conn read = [] := by
            by_contra some
            cases goes.mpr some
          refine ⟨echoes, ?_⟩
          rw [input, idle.2, none]
          rfl

theorem handleWrite_spec (idle : e.Idle) (results : List IoResult) :
    Spec Buffer.Throws Idle (e.onConn (e.conn.handleWrite results)) := by
  obtain ⟨next, effects, wrote, extended, -, -, handed, watched, -⟩ :=
    TcpConnection.handleWrite_ok idle.1.sound results
  have input := TcpConnection.keepsInput_handleWrite e.conn results
  rw [wrote] at input
  have same : next.inputBuffer = e.conn.inputBuffer := input
  rw [wrote]
  have up : next.connected = e.conn.connected := by
    simp only [TcpConnection.connected, extended.state]
  refine ⟨idle.1.of_quiet extended.sound (fun on => watched (idle.1.watched (up ▸ on))) ?_ rfl
    ⟨rfl, rfl⟩ ?_ rfl, (congrArg Buffer.readable same).trans idle.2⟩
  · rw [same]
    exact idle.1.input
  · rw [extended.stream _ fun _ => rfl, List.append_assoc, handed]

/-- A function that only takes the connection down. -/
theorem onConn_down (idle : e.Idle) {result : Except Fault TcpConnection} {next : TcpConnection}
    (ran : result = .ok next) (kept : e.conn.KeepsInput result) (sound : next.Sound)
    (watched : next.connected = true → next.Watched)
    (output : stream Effect.handed next.trace ++ next.readable =
      stream Effect.handed e.conn.trace ++ e.conn.readable) :
    Spec Buffer.Throws Idle (e.onConn result) := by
  subst ran
  have same : next.inputBuffer = e.conn.inputBuffer := kept
  refine ⟨idle.1.of_quiet sound watched ?_ rfl ⟨rfl, rfl⟩ output rfl,
    (congrArg Buffer.readable same).trans idle.2⟩
  rw [same]
  exact idle.1.input

theorem step_idle (idle : e.Idle) (event : EchoEvent) :
    Spec Buffer.Throws Idle (e.step event) := by
  have sound := idle.1.sound
  cases event with
  | handleRead results => exact handleRead_spec idle results
  | handleWrite results => exact handleWrite_spec idle results
  | handleClose | handleError =>
      obtain ⟨next, closed, -, sound', watched, output⟩ := handleClose_quiet sound
      exact onConn_down idle closed (TcpConnection.keepsInput_handleClose e.conn) sound' watched
        output
  | connectDestroyed =>
      obtain ⟨next, destroyed, outcome⟩ := TcpConnection.connectDestroyed_ok sound
      have kept := TcpConnection.keepsInput_connectDestroyed e.conn
      split at outcome
      · obtain ⟨sound', watched, output⟩ := of_switches outcome.1 (by simp [Effect.handed])
        exact onConn_down idle destroyed kept sound' watched output
      · rename_i down
        obtain ⟨switches, -⟩ := outcome
        refine onConn_down idle destroyed kept switches.sound (fun up => ?_) ?_
        · rw [TcpConnection.connected, switches.state] at up
          exact absurd (by simpa using up) down
        · rw [switches.trace, List.nil_append, TcpConnection.readable, switches.outputBuffer]

theorem start_idle (self fd : Nat) : (start self fd).Idle := by
  refine ⟨⟨Session.established_sound _, fun _ => Session.established_watched _, ?_,
    List.forall_mem_nil _, ⟨Nat.le_refl _, Nat.le_refl _⟩, ?_⟩, Block.window_empty _ _⟩
  · exact Block.window_empty _ _
  · show [] ++ _ = _
    exact Block.window_empty _ _

/-- The application gets every byte that is read, once and in order, in strings that are not empty;
and however short or failing the reads and writes are, the client gets a prefix of a sequence of
whole responses, one for each string taken while the connection was up whose direct write did not
fail for good. -/
theorem echo_stream_intact (self fd : Nat) (events : List EchoEvent) (e : EchoConnection)
    (reached : run step (start self fd) events = .ok e) :
    e.messages.flatten = e.received ∧ (∀ msg ∈ e.messages, msg ≠ []) ∧
      e.dropped ≤ e.answered ∧ e.answered ≤ e.messages.length ∧
      stream Effect.handed e.conn.trace ++ e.conn.readable =
        (List.replicate (e.answered - e.dropped) EchoServer.response.bytes).flatten := by
  obtain ⟨echoes, empty⟩ := Reachable.preserves Idle
    (fun e event _ idle taken => (step_idle idle event).of_ok taken) (start_idle self fd)
    ⟨events, reached⟩
  refine ⟨?_, echoes.nonempty, echoes.counted.1, echoes.counted.2, echoes.output⟩
  rw [← echoes.input, empty, List.append_nil]

/-- Two strings, of which the first is answered by a short write. -/
theorem echo_stream_intact_two :
    ∃ e, run step (start 1 7) [.handleRead [(.data [1, 2], .count 10), (.data [3], .count 0)],
        .handleWrite [.count 100, .count 40]] = .ok e ∧
      e.messages.flatten = e.received ∧ stream Effect.handed e.conn.trace ++ e.conn.readable =
        (List.replicate (e.answered - e.dropped) EchoServer.response.bytes).flatten := by
  obtain ⟨e, reached, -⟩ := (map_ok_iff _ _ _).mp
    (show (run step (start 1 7) [.handleRead [(.data [1, 2], .count 10), (.data [3], .count 0)],
      .handleWrite [.count 100, .count 40]]).map (fun e => e.messages) =
        .ok [[1, 2], [3]] by decide +kernel)
  obtain ⟨taken, -, -, -, output⟩ := echo_stream_intact 1 7 _ e reached
  exact ⟨e, reached, taken, output⟩

end EchoConnection

end KamaWebserver
