import KamaWebserver.Session

set_option autoImplicit false

namespace KamaWebserver

open Outcome Trace Transition

namespace TcpConnection

/-- How often the application has been told that the connection is down. -/
def downs (c : TcpConnection) : Nat := c.trace.count (.connectionCallback false)

def closes (c : TcpConnection) : Nat := c.trace.count .closeCallback

/-- The application has been told exactly when the read interest is gone. -/
structure Notified (c : TcpConnection) : Prop where
  sound : c.Sound
  downs : c.downs = if c.channel.isReading then 0 else 1
  closes : c.closes ≤ c.downs
  connected : c.state = .kConnected → c.channel.isReading = true
  fresh : .connectEstablished ∉ c.pendingFunctors ++ c.functors

variable {c after : TcpConnection}

theorem Extends.count {left : List UInt8} {effects : List Effect}
    (extended : c.Extends after left effects) (effect : Effect)
    (visible : effect.isVisible = true) :
    after.trace.count effect = effects.count effect + c.trace.count effect := by
  have kept : ∀ trace : List Effect,
      (trace.filter Effect.isVisible).count effect = trace.count effect :=
    fun trace => List.count_filter visible
  have counted := congrArg (List.count effect) extended.visible
  simpa only [TcpConnection.visible, List.count_append, kept] using counted

/-- The effects tell the application nothing about the state of the connection. -/
def Discreet (effects : List Effect) : Prop :=
  .connectionCallback false ∉ effects ∧ .closeCallback ∉ effects

theorem discreet_of_output {effects : List Effect}
    (shown : ∀ effect ∈ effects, effect.isOutput = true ∨ effect = .shutdownWrite) :
    Discreet effects := by
  constructor
  · intro inside
    simpa [Effect.isOutput] using shown _ inside
  · intro inside
    simpa [Effect.isOutput] using shown _ inside

/-- The step tells the application nothing, and what it was told stays right. -/
def StaysNotified (c after : TcpConnection) : Prop := after.Notified ∧ after.downs = c.downs

theorem Notified.extends (notified : c.Notified) {left : List UInt8} {effects : List Effect}
    (extended : c.Extends after left effects) (discreet : Discreet effects) :
    c.StaysNotified after := by
  have downs : after.downs = c.downs := by
    rw [TcpConnection.downs, extended.count _ rfl, List.count_eq_zero.mpr discreet.1,
      Nat.zero_add]
    rfl
  have closes : after.closes = c.closes := by
    rw [TcpConnection.closes, extended.count _ rfl, List.count_eq_zero.mpr discreet.2,
      Nat.zero_add]
    rfl
  obtain ⟨added, queued, -, own⟩ := extended.pending
  refine ⟨⟨extended.sound, ?_, ?_, ?_, ?_⟩, downs⟩
  · rw [downs, notified.downs, extended.reading]
  · rw [downs, closes]
    exact notified.closes
  · rw [extended.state, extended.reading]
    exact notified.connected
  · have fresh := notified.fresh
    rw [queued, extended.functors]
    simp only [List.mem_append, not_or] at fresh ⊢
    exact ⟨⟨fresh.1, fun inside => by cases own _ inside⟩, fresh.2⟩

/-- The first close is the one the application hears of. -/
theorem Notified.handleClose (notified : c.Notified) (first : c.channel.isReading = true)
    (closed : c.Switches after .kDisconnected [.closeCallback, .connectionCallback false])
    (quiet : after.channel.isReading = false) : after.Notified ∧ after.downs = 1 := by
  have downs := notified.downs
  have closes := notified.closes
  simp only [first, ↓reduceIte] at downs
  have told : after.downs = 1 := by
    simp [TcpConnection.downs, closed.trace] at downs ⊢
    omega
  refine ⟨⟨closed.sound, by simp [told, quiet], ?_, ?_, ?_⟩, told⟩
  · rw [told]
    simp [TcpConnection.closes, closed.trace] at closes downs ⊢
    omega
  · simp [closed.state]
  · rw [closed.pendingFunctors, closed.functors]
    exact notified.fresh

/-- A second close tells the application again. -/
theorem Notified.handleClose_again (notified : c.Notified) (again : c.channel.isReading = false)
    (closed : c.Switches after .kDisconnected [.closeCallback, .connectionCallback false]) :
    after.downs = 2 := by
  have downs := notified.downs
  simp [again] at downs
  simp [TcpConnection.downs, closed.trace] at downs ⊢
  omega

/-- `connectDestroyed` leaves exactly one notification behind, provided the state is
kConnected or the notification has been made. -/
theorem Notified.connectDestroyed (notified : c.Notified)
    (told : c.state = .kConnected ∨ c.channel.isReading = false)
    (ran : c.connectDestroyed = .ok after) : after.Notified ∧ after.downs = 1 := by
  have downs := notified.downs
  have closes := notified.closes
  obtain ⟨next, returned, outcome⟩ := connectDestroyed_ok notified.sound
  cases returned.symm.trans ran
  split at outcome
  · rename_i up
    obtain ⟨switched, quiet, -⟩ := outcome
    simp only [notified.connected up, ↓reduceIte] at downs
    have once : after.downs = 1 := by
      simp [TcpConnection.downs, switched.trace] at downs ⊢
      omega
    refine ⟨⟨switched.sound, by simp [once, quiet], ?_, by simp [switched.state], ?_⟩, once⟩
    · simp [TcpConnection.closes, switched.trace] at closes ⊢
      omega
    · rw [switched.pendingFunctors, switched.functors]
      exact notified.fresh
  · rename_i down
    obtain ⟨switched, same, -⟩ := outcome
    have quiet := told.resolve_left down
    have kept : after.downs = c.downs := by
      simp [TcpConnection.downs, switched.trace]
    simp only [quiet, Bool.false_eq_true, ↓reduceIte] at downs
    refine ⟨⟨switched.sound, by simp [kept, downs, same, quiet], ?_, ?_, ?_⟩, kept.trans downs⟩
    · rw [kept]
      simpa [TcpConnection.closes, switched.trace] using closes
    · simp [switched.state, down]
    · rw [switched.pendingFunctors, switched.functors]
      exact notified.fresh

/-- In any other state it tells the application nothing. -/
theorem Notified.connectDestroyed_silent (notified : c.Notified) (down : c.state ≠ .kConnected)
    (reading : c.channel.isReading = true) (ran : c.connectDestroyed = .ok after) :
    after.downs = 0 := by
  have downs := notified.downs
  simp only [reading, ↓reduceIte] at downs
  obtain ⟨next, returned, outcome⟩ := connectDestroyed_ok notified.sound
  cases returned.symm.trans ran
  simp only [down, ↓reduceIte] at outcome
  simpa [TcpConnection.downs, outcome.1.trace] using downs

theorem Notified.setDisconnecting (notified : c.Notified) :
    c.StaysNotified (c.setState .kDisconnecting) :=
  ⟨⟨notified.sound.setState _, notified.downs, notified.closes, by simp [setState],
    notified.fresh⟩, rfl⟩

theorem Notified.queueInLoop (notified : c.Notified) {functor : Functor}
    (plain : functor ≠ .connectEstablished) : c.StaysNotified (c.queueInLoop functor) :=
  ⟨⟨notified.sound.queueInLoop functor, notified.downs, notified.closes, notified.connected, by
    simpa [TcpConnection.queueInLoop, plain.symm] using notified.fresh⟩, rfl⟩

theorem Notified.accept (notified : c.Notified) (payload : List UInt8) :
    c.StaysNotified (c.emit (.accept payload)) :=
  notified.extends (emit_extends notified.sound _ rfl) (by simp [Discreet])

theorem Notified.sendInLoop (notified : c.Notified) {data : ByteString} {result : IoResult}
    (ran : c.sendInLoop data result = .ok after) : c.StaysNotified after := by
  obtain ⟨effects, extended, shown, -⟩ := (sendInLoop_spec notified.sound data result).of_ok ran
  exact notified.extends extended
    (discreet_of_output fun effect inside => Or.inl (shown effect inside))

theorem Notified.sendFileInLoop (notified : c.Notified) (file : List UInt8) (offset count : Nat)
    (result : IoResult) : c.StaysNotified (c.sendFileInLoop file offset count result) := by
  obtain ⟨left, extended, -⟩ := sendFileInLoop_extends notified.sound file offset count result
  exact notified.extends extended
    (discreet_of_output fun effect inside =>
      Or.inl (fileEffects_isOutput _ _ _ effect inside))

theorem Notified.shutdownInLoop (notified : c.Notified) : c.StaysNotified c.shutdownInLoop := by
  apply notified.extends (shutdownInLoop_extends notified.sound)
  split <;> simp [Discreet]

theorem Notified.handleWrite (notified : c.Notified) {results : List IoResult}
    (wrote : c.handleWrite results = .ok after) : c.StaysNotified after := by
  obtain ⟨next, effects, returned, extended, shown, -⟩ := handleWrite_ok notified.sound results
  cases returned.symm.trans wrote
  exact notified.extends extended (discreet_of_output shown)

/-- A read that does not close tells the application of data only. -/
theorem Notified.readOnce (notified : c.Notified) {result : ReadResult} {again : Bool}
    (goes : c.closesOnRead result = false) (read : c.readOnce result = .ok (after, again)) :
    c.StaysNotified after := by
  obtain ⟨sound, channel, state, -, functors, pending, trace⟩ :=
    (readOnce_keeps notified.sound result goes).of_ok read
  have downs : after.downs = c.downs := by
    rcases trace with same | grown
    · rw [TcpConnection.downs, same]
      rfl
    · rw [TcpConnection.downs, show after.trace = _ from grown, List.count_cons_of_ne (by simp)]
      rfl
  have closes : after.closes = c.closes := by
    rcases trace with same | grown
    · rw [TcpConnection.closes, same]
      rfl
    · rw [TcpConnection.closes, show after.trace = _ from grown, List.count_cons_of_ne (by simp)]
      rfl
  refine ⟨⟨sound, ?_, ?_, ?_, ?_⟩, downs⟩
  · rw [downs, channel]
    exact notified.downs
  · rw [downs, closes]
    exact notified.closes
  · rw [state, channel]
    exact notified.connected
  · rw [functors, pending]
    exact notified.fresh

end TcpConnection

namespace Session

/-- The step runs a handler that ends in `handleClose`. -/
def closing (s : Session) : SessionEvent → Bool
  | .handleClose => s.handlers.head? = some .close
  | .handleError => s.handlers.head? = some .error
  | .handleRead result => s.handlers.head? = some .read ∧ s.conn.closesOnRead result = true
  | _ => false

/-- The step runs `connectDestroyed`. -/
def destroying (s : Session) : SessionEvent → Bool
  | .runFunctor _ => s.conn.functors.head? = some .connectDestroyed
  | .destroyServer inLoopThread => s.tabled ∧ inLoopThread ∧ s.handlers = []
  | _ => false

/-- A handler that closes runs only while the channel has read interest, and
`connectDestroyed` only in kConnected or once the read interest is gone. -/
def ClosesOnce (s : Session) (event : SessionEvent) : Prop :=
  (s.closing event = true → s.conn.channel.isReading = true) ∧
    (s.destroying event = true →
      s.conn.state = .kConnected ∨ s.conn.channel.isReading = false)

/-- At most one down callback and one close callback, and exactly one down callback once
`connectDestroyed` has run. -/
structure NotifiedOnce (s : Session) : Prop where
  downs : s.conn.downs ≤ 1
  closes : s.conn.closes ≤ 1
  destroyed : s.destroyed = true → s.conn.downs = 1

structure Inv (s : Session) : Prop where
  notified : s.conn.Notified
  destroyed : s.destroyed = true → s.conn.downs = 1

variable {s after : Session}

theorem Inv.notifiedOnce (inv : s.Inv) : s.NotifiedOnce := by
  have downs := inv.notified.downs
  have closes := inv.notified.closes
  have bound : s.conn.downs ≤ 1 := by
    rw [downs]
    split <;> omega
  exact ⟨bound, Nat.le_trans closes bound, inv.destroyed⟩

/-- A step that tells the application nothing. -/
theorem Inv.of_stays (inv : s.Inv) (destroyed : after.destroyed = s.destroyed)
    (stays : s.conn.StaysNotified after.conn) : after.Inv := by
  refine ⟨stays.1, fun done => ?_⟩
  rw [destroyed] at done
  rw [stays.2]
  exact inv.destroyed done

theorem Notified.begin (notified : s.conn.Notified) (call : UserCall) :
    s.conn.StaysNotified (call.begin s.conn) := by
  cases call with
  | queueSend data => exact notified.accept _
  | queueSendFile file offset count => exact notified.accept _
  | storeDisconnecting => exact ⟨notified, rfl⟩
  | queueShutdown => exact ⟨notified, rfl⟩

theorem Notified.advance (notified : s.conn.Notified) {index : Nat}
    (taken : s.advance index = .ok after) :
    s.conn.StaysNotified after.conn ∧ after.destroyed = s.destroyed := by
  obtain ⟨call, -, rfl⟩ := advance_ok taken
  refine ⟨?_, rfl⟩
  cases call with
  | queueSend data => exact notified.queueInLoop (by simp)
  | queueSendFile file offset count => exact notified.queueInLoop (by simp)
  | storeDisconnecting => exact notified.setDisconnecting
  | queueShutdown => exact notified.queueInLoop (by simp)

theorem Notified.interleave (notified : s.conn.Notified) {between : Option Nat}
    (taken : s.interleave between = .ok after) :
    s.conn.StaysNotified after.conn ∧ after.destroyed = s.destroyed := by
  cases between with
  | none =>
      cases taken
      exact ⟨⟨notified, rfl⟩, rfl⟩
  | some index => exact Notified.advance notified taken

/-- A close that `closing` announces. -/
theorem Inv.close (inv : s.Inv) (first : s.conn.channel.isReading = true) {conn : TcpConnection}
    (closed : s.conn.handleClose = .ok conn) (same : after.conn = conn) : after.Inv := by
  obtain ⟨next, returned, switched, quiet, -⟩ := TcpConnection.handleClose_ok inv.notified.sound
  cases returned.symm.trans closed
  obtain ⟨notified, told⟩ := inv.notified.handleClose first switched quiet
  subst same
  exact ⟨notified, fun _ => told⟩

/-- A destruction that `destroying` announces. -/
theorem inv_of_destroy {c conn : TcpConnection} (notified : c.Notified)
    (told : c.state = .kConnected ∨ c.channel.isReading = false)
    (ran : c.connectDestroyed = .ok conn) (same : after.conn = conn) : after.Inv := by
  obtain ⟨kept, once⟩ := notified.connectDestroyed told ran
  subst same
  exact ⟨kept, fun _ => once⟩

theorem Notified.setBatch (notified : s.conn.Notified) {functor : Functor}
    {functors : List Functor} (batch : s.conn.functors = functor :: functors) :
    (s.conn.setBatch functors).Notified ∧ functor ≠ .connectEstablished := by
  have fresh := notified.fresh
  rw [batch] at fresh
  simp only [List.mem_append, List.mem_cons, not_or] at fresh
  refine ⟨⟨notified.sound.setBatch functors, notified.downs, notified.closes,
    notified.connected, ?_⟩, Ne.symm fresh.2.1⟩
  simp only [List.mem_append, not_or]
  exact ⟨fresh.1, fresh.2.2⟩

/-- One step, by what the loop runs. -/
theorem Inv.preserved (inv : s.Inv) {event : SessionEvent} (guarded : s.ClosesOnce event)
    (taken : s.step event = .ok after) : after.Inv := by
  have notified := inv.notified
  cases step_inv taken with
  | handleEvent revents idle between seen => exact inv.of_stays rfl ⟨notified, rfl⟩
  | handleClose rest conn waiting closed =>
      exact inv.close (guarded.1 (by simp [closing, waiting])) closed rfl
  | handleError rest conn waiting closed =>
      exact inv.close (guarded.1 (by simp [closing, waiting])) closed rfl
  | handleRead result rest conn again waiting read =>
      cases closes : s.conn.closesOnRead result with
      | true =>
          have first := guarded.1 (by simp [closing, waiting, closes])
          obtain ⟨next, returned, switched, quiet, -⟩ :=
            TcpConnection.readOnce_closes notified.sound result closes
          cases returned.symm.trans read
          obtain ⟨kept, once⟩ := notified.handleClose first switched quiet
          exact ⟨kept, fun _ => once⟩
      | false => exact inv.of_stays rfl (notified.readOnce closes read)
  | handleWrite results rest conn waiting wrote =>
      exact inv.of_stays rfl (notified.handleWrite wrote)
  | doPendingFunctors idle between =>
      refine inv.of_stays rfl ⟨⟨notified.sound.swapFunctors, notified.downs, notified.closes,
        notified.connected, ?_⟩, rfl⟩
      have fresh := notified.fresh
      rw [between, List.append_nil] at fresh
      exact fresh
  | runFunctor result functor functors conn batch ran =>
      obtain ⟨notified', plain⟩ := Notified.setBatch notified batch
      cases functor with
      | connectEstablished => exact absurd rfl plain
      | connectDestroyed =>
          have told := guarded.2 (by simp [destroying, batch])
          exact inv_of_destroy notified' told ran rfl
      | sendInLoop data => exact inv.of_stays (by simp) (notified'.sendInLoop ran)
      | sendFileInLoop file offset count =>
          cases ran
          exact inv.of_stays (by simp) (notified'.sendFileInLoop file offset count result)
      | shutdownInLoop =>
          cases ran
          exact inv.of_stays (by simp) notified'.shutdownInLoop
      | writeComplete =>
          cases ran
          exact inv.of_stays (by simp) ⟨notified', rfl⟩
      | highWaterMark pending =>
          cases ran
          exact inv.of_stays (by simp) ⟨notified', rfl⟩
  | retrieve len =>
      exact inv.of_stays rfl ⟨⟨notified.sound.retrieveInput len, notified.downs,
        notified.closes, notified.connected, notified.fresh⟩, rfl⟩
  | send data result conn up ran =>
      obtain ⟨accepted, same⟩ := notified.accept data.bytes
      obtain ⟨kept, sent⟩ := accepted.sendInLoop ran
      exact inv.of_stays rfl ⟨kept, sent.trans same⟩
  | sendRefused data result down => exact inv
  | sendFile file offset count result between middle up other =>
      obtain ⟨accepted, same⟩ := notified.accept (fileSegment file offset count)
      obtain ⟨⟨moved, steady⟩, mark⟩ :=
        Notified.interleave
          (show (s.accept (fileSegment file offset count)).conn.Notified from accepted) other
      obtain ⟨kept, sent⟩ := moved.sendFileInLoop file offset count result
      exact inv.of_stays mark ⟨kept, sent.trans (steady.trans same)⟩
  | sendFileRefused file offset count result between down => exact inv
  | shutdown up =>
      obtain ⟨leaving, same⟩ := notified.setDisconnecting
      obtain ⟨kept, closed⟩ := leaving.shutdownInLoop
      exact inv.of_stays rfl ⟨kept, closed.trans same⟩
  | shutdownRefused down => exact inv
  | other call up first => exact inv.of_stays rfl (Notified.begin notified call)
  | advance index _ moved =>
      obtain ⟨stays, mark⟩ := Notified.advance notified moved
      exact inv.of_stays mark stays
  | storeOverwritten index found down => exact inv.of_stays rfl ⟨notified, rfl⟩
  | removeConnectionInLoop closed =>
      exact inv.of_stays rfl (notified.queueInLoop (by simp))
  | destroyHere conn tabled idle ran =>
      have told := guarded.2 (by simp [destroying, tabled, idle])
      exact inv_of_destroy notified told ran rfl
  | destroyElsewhere tabled => exact inv.of_stays rfl (notified.queueInLoop (by simp))

theorem runHandler_of_head (handler : Handler)
    (body : TcpConnection → Except Fault (TcpConnection × Bool)) {conn : TcpConnection}
    {again : Bool}
    (head : s.handlers.head? = some handler) (ran : body s.conn = .ok (conn, again)) :
    ∃ after, s.runHandler handler body = .ok after ∧ after.conn = conn := by
  obtain ⟨rest, waiting⟩ := List.head?_eq_some_iff.mp head
  simp only [runHandler, waiting, ↓reduceIte, ran]
  exact ⟨_, rfl, rfl⟩

/-- A close without read interest is a second notification. -/
theorem Inv.close_again (inv : s.Inv) {event : SessionEvent} (closes : s.closing event = true)
    (again : s.conn.channel.isReading = false) :
    ∃ after, s.step event = .ok after ∧ after.conn.downs = 2 := by
  have sound := inv.notified.sound
  obtain ⟨conn, closed, switched, -⟩ := TcpConnection.handleClose_ok sound
  have twice := inv.notified.handleClose_again again switched
  have ends : s.conn.handleClose.map (·, false) = .ok (conn, false) :=
    congrArg (Except.map (·, false)) closed
  cases event with
  | handleClose =>
      obtain ⟨after, taken, same⟩ := runHandler_of_head .close
        (fun c => c.handleClose.map (·, false)) (by simpa [closing] using closes) ends
      exact ⟨after, taken, by rw [same, twice]⟩
  | handleError =>
      obtain ⟨after, taken, same⟩ := runHandler_of_head .error
        (fun c => c.handleError.map (·, false)) (by simpa [closing] using closes) ends
      exact ⟨after, taken, by rw [same, twice]⟩
  | handleRead result =>
      simp only [closing, decide_eq_true_eq] at closes
      obtain ⟨next, read, switched', -⟩ :=
        TcpConnection.readOnce_closes sound result closes.2
      obtain ⟨after, taken, same⟩ := runHandler_of_head .read
        (fun c => c.readOnce result) closes.1 read
      exact ⟨after, taken, by rw [same, inv.notified.handleClose_again again switched']⟩
  | _ => cases closes

/-- A destruction that finds read interest in another state than kConnected makes no
notification. -/
theorem Inv.destroy_silent (inv : s.Inv) {event : SessionEvent}
    (destroys : s.destroying event = true) (down : s.conn.state ≠ .kConnected)
    (reading : s.conn.channel.isReading = true) :
    ∃ after, s.step event = .ok after ∧ after.destroyed = true ∧ after.conn.downs = 0 := by
  cases event with
  | runFunctor result =>
      obtain ⟨functors, batch⟩ := List.head?_eq_some_iff.mp (of_decide_eq_true destroys)
      obtain ⟨notified, -⟩ := Notified.setBatch inv.notified batch
      obtain ⟨conn, ran, -⟩ := TcpConnection.connectDestroyed_ok notified.sound
      have silent := notified.connectDestroyed_silent down reading ran
      refine ⟨{ s with conn, destroyed := s.destroyed || true }, ?_, by simp, silent⟩
      simp only [step, runFunctor, batch, TcpConnection.runFunctor, ran]
      rfl
  | destroyServer inLoopThread =>
      simp only [destroying, decide_eq_true_eq] at destroys
      obtain ⟨tabled, here, idle⟩ := destroys
      obtain ⟨conn, ran, -⟩ := TcpConnection.connectDestroyed_ok inv.notified.sound
      have silent := inv.notified.connectDestroyed_silent down reading ran
      refine ⟨{ s with conn, tabled := false, destroyed := true }, ?_, rfl, silent⟩
      simp only [step, destroyServer, tabled, here, idle, ↓reduceIte, ran]
      rfl
  | _ => cases destroys

/-- A step outside the condition is taken, and the notifications are wrong after it. -/
theorem Inv.breaks (inv : s.Inv) {event : SessionEvent} (unguarded : ¬ s.ClosesOnce event) :
    ∃ after, s.step event = .ok after ∧ ¬ after.NotifiedOnce := by
  rcases not_and_or.mp unguarded with again | silent
  · rw [Classical.not_imp, Bool.not_eq_true] at again
    obtain ⟨after, taken, twice⟩ := inv.close_again again.1 again.2
    refine ⟨after, taken, fun once => ?_⟩
    have bound := once.downs
    omega
  · rw [Classical.not_imp, not_or, Bool.not_eq_false] at silent
    obtain ⟨after, taken, destroyed, none⟩ :=
      inv.destroy_silent silent.1 silent.2.1 silent.2.2
    refine ⟨after, taken, fun once => ?_⟩
    have told := once.destroyed destroyed
    omega

theorem start_inv (config : Config) : (start config).Inv := by
  have reading : (start config).conn.channel.isReading = true := by
    show (kNoneEvent ||| EPOLLET ||| kReadEvent) &&& kReadEvent != 0#32
    decide
  have none : (start config).conn.downs = 0 := rfl
  refine ⟨⟨established_sound config, ?_, ?_, fun _ => reading, ?_⟩, ?_⟩
  · rw [none, reading]
    rfl
  · exact Nat.le_refl 0
  · simp [start, established, TcpConnection.create]
  · intro done
    cases done

/-- In every run the application is told exactly once that the connection is down, if
and only if each step of the run meets the condition. -/
theorem notifiedOnce_iff_closesOnce (config : Config) (events : List SessionEvent) :
    Always step NotifiedOnce (fun _ => True) (start config) events ↔
      Guarded step ClosesOnce (start config) events := by
  refine always_iff_guarded Inv ?_ ?_ ?_ ?_ ?_ (start_inv config) events
  · exact fun s inv => inv.notifiedOnce
  · exact fun s event next inv guarded taken => inv.preserved guarded taken
  · exact fun s event fault inv guarded failed => trivial
  · intro s event next inv unguarded taken
    obtain ⟨after, taken', wrong⟩ := inv.breaks unguarded
    cases taken'.symm.trans taken
    exact wrong
  · intro s event fault inv unguarded failed
    obtain ⟨after, taken, -⟩ := inv.breaks unguarded
    cases taken.symm.trans failed

/-- EPOLLERR with EPOLLIN: the error handler closes the connection, and so does the read
that finds the end of the stream. -/
theorem errorThenEof_notifies_twice :
    ¬ ∀ (config : Config) (events : List SessionEvent),
      Always step NotifiedOnce (fun _ => True) (start config) events := by
  intro always
  obtain ⟨s, reached, twice⟩ := (map_ok_iff _ _ _).mp
    (show (run step (start plainConfig) [.handleEvent (EPOLLIN ||| EPOLLERR), .handleError,
      .handleRead (.data [])]).map (fun s => s.conn.downs) = .ok 2 by decide +kernel)
  have once := (always plainConfig _).target reached
  have bound := once.downs
  omega

end Session

end KamaWebserver
