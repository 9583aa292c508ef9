import KamaWebserver.DisconnectSilence
import KamaWebserver.Leaving

set_option autoImplicit false

namespace KamaWebserver

open Outcome Trace Transition

/-- No transfer is tried on the socket once `shutdownWrite` has been called on it. -/
def SilentAfterFin (trace : List Effect) : Prop :=
  AtEach (fun effect => effect.isTransfer = true) (fun earlier => .shutdownWrite ∉ earlier) trace

/-- Effects among which no transfer is tried. -/
def Idle (effects : List Effect) : Prop := ∀ effect ∈ effects, effect.isTransfer = false

theorem silentAfterFin_idle {effects : List Effect} (idle : Idle effects)
    (earlier : List Effect) :
    SilentAfterFin (effects ++ earlier) ↔ SilentAfterFin earlier := by
  unfold SilentAfterFin
  rw [atEach_append_iff]
  apply and_iff_left
  apply AtEach.of_unmarked
  intro effect inside
  simp [idle effect inside]

/-- A transfer keeps the silence exactly when `shutdownWrite` has not been called. -/
theorem silentAfterFin_transfer {effect : Effect} (transfer : effect.isTransfer = true)
    (earlier : List Effect) :
    SilentAfterFin (effect :: earlier) ↔
      SilentAfterFin earlier ∧ .shutdownWrite ∉ earlier := by
  simp only [SilentAfterFin, AtEach, transfer, true_implies]

namespace TcpConnection

variable {c after : TcpConnection}

theorem silentAfterFin_visible (c : TcpConnection) :
    SilentAfterFin c.visible ↔ SilentAfterFin c.trace := by
  apply atEach_filter_iff
  · intro effect hidden
    cases effect with
    | queueInLoop functor => simp [Effect.isTransfer]
    | _ => cases hidden
  · intro trace
    simp [Effect.isVisible]

/-- A step that tries no transfer. -/
theorem Extends.silent_iff {left : List UInt8} {effects : List Effect}
    (extended : c.Extends after left effects) (idle : Idle effects) :
    SilentAfterFin after.trace ↔ SilentAfterFin c.trace := by
  rw [← silentAfterFin_visible, ← silentAfterFin_visible, extended.visible,
    silentAfterFin_idle idle]

theorem Switches.silent_iff {state : ConnState} {effects : List Effect}
    (switched : c.Switches after state effects) (idle : Idle effects) :
    SilentAfterFin after.trace ↔ SilentAfterFin c.trace := by
  rw [switched.trace, silentAfterFin_idle idle]

/-- `sendInLoop` tries a write exactly on the direct path. -/
theorem sendInLoop_silent (sound : c.Sound) {data : ByteString} {result : IoResult}
    (ran : c.sendInLoop data result = .ok after) :
    SilentAfterFin after.trace ↔ SilentAfterFin c.trace ∧
      (.shutdownWrite ∈ c.trace → c.canWriteDirectly = false) := by
  by_cases direct : c.canWriteDirectly = true
  · obtain ⟨extended, -⟩ := (sendInLoop_direct sound direct data result).of_ok ran
    have started : Idle [.sendInLoop data.bytes] := by
      simp [Idle, Effect.isTransfer]
    have shown := silentAfterFin_idle started c.visible
    rw [← silentAfterFin_visible, extended.visible, List.cons_append,
      silentAfterFin_transfer rfl, shown, silentAfterFin_visible]
    have seen : Effect.shutdownWrite ∈ c.visible ↔ Effect.shutdownWrite ∈ c.trace :=
      mem_visible rfl c
    simp [direct, seen]
  · rw [Bool.not_eq_true] at direct
    obtain ⟨extended, -⟩ := (sendInLoop_buffered sound direct data result).of_ok ran
    rw [extended.silent_iff (by simp [Idle, Effect.isTransfer])]
    simp [direct]

/-- `sendFileInLoop` tries a transfer exactly when it is not disconnecting and nothing is
pending. -/
theorem sendFileInLoop_silent (sound : c.Sound) (file : List UInt8) (offset count : Nat)
    (result : IoResult) :
    SilentAfterFin (c.sendFileInLoop file offset count result).trace ↔
      SilentAfterFin c.trace ∧
        (.shutdownWrite ∈ c.trace → c.state = .kDisconnecting ∨ c.canWriteDirectly = false) := by
  obtain ⟨left, extended, -⟩ := sendFileInLoop_extends sound file offset count result
  rw [← silentAfterFin_visible, extended.visible, fileEffects]
  by_cases leaving : c.state = .kDisconnecting
  · simp [leaving, silentAfterFin_visible]
  · by_cases direct : c.canWriteDirectly = true
    · simp only [leaving, direct, ↓reduceIte, List.singleton_append]
      rw [silentAfterFin_transfer rfl, silentAfterFin_visible]
      have seen : Effect.shutdownWrite ∈ c.visible ↔ Effect.shutdownWrite ∈ c.trace :=
        mem_visible rfl c
      simp [seen]
    · simp [leaving, direct, silentAfterFin_visible]

/-- A first answer leads to an empty buffer when it takes something, and then takes all
or leaves what the later answers empty. -/
theorem drains_cons_iff (result : IoResult) (results : List IoResult) (output : List UInt8)
    (some : output ≠ []) :
    drains output.length (result :: results) = true ↔
      result.accepted output ≠ [] ∧ (output.drop (result.accepted output).length = [] ∨
        drains (output.drop (result.accepted output).length).length results = true) := by
  constructor
  · intro emptied
    cases result with
    | error errno => simp [drains] at emptied
    | count n =>
        simp only [drains, Bool.and_eq_true, decide_eq_true_eq, Bool.or_eq_true] at emptied
        obtain ⟨positive, later⟩ := emptied
        have taken : (output.take n).length = min n output.length := List.length_take
        refine ⟨by simp [IoResult.accepted, some, Nat.ne_of_gt positive], ?_⟩
        simp only [IoResult.accepted, List.drop_eq_nil_iff, List.length_drop, taken]
        rcases later with whole | later
        · left
          omega
        · by_cases whole : output.length ≤ n
          · left
            omega
          · right
            rwa [Nat.min_eq_left (by omega)]
  · rintro ⟨accepts, rest⟩
    exact drains_cons result results output accepts rest

/-- One turn tries one write, and leaves the silence intact when `shutdownWrite` had not been
called; it calls it when it empties the buffer of a disconnecting connection. -/
theorem writeOnce_silent (sound : c.Sound) (result : IoResult) :
    ∃ middle again, c.writeOnce result = .ok (middle, again) ∧ middle.Sound ∧
      middle.state = c.state ∧
      middle.readable = c.readable.drop (result.accepted c.readable).length ∧
      (again = true ↔ result.accepted c.readable ≠ []) ∧
      (SilentAfterFin middle.trace ↔ SilentAfterFin c.trace ∧ .shutdownWrite ∉ c.trace) ∧
      (.shutdownWrite ∈ middle.trace ↔ .shutdownWrite ∈ c.trace ∨
        c.state = .kDisconnecting ∧ again = true ∧ middle.readable = []) := by
  obtain ⟨middle, again, returned, rest, goes, outcome⟩ := writeOnce_ok sound result
  refine ⟨middle, again, returned, ?_⟩
  have written : SilentAfterFin (.write (result.accepted c.readable) :: c.visible) ↔
      SilentAfterFin c.trace ∧ .shutdownWrite ∉ c.trace := by
    rw [silentAfterFin_transfer rfl, silentAfterFin_visible, mem_visible rfl]
  rcases outcome with ⟨some, empty, extended, -⟩ | ⟨stays, extended, -⟩
  · refine ⟨extended.sound, extended.state, rest, goes, ?_, ?_⟩
    · have closes : Idle (drainEffects c.state) := by
        unfold drainEffects
        split <;> simp [Idle, Effect.isTransfer]
      rw [← silentAfterFin_visible, extended.visible, List.append_assoc,
        silentAfterFin_idle closes]
      exact written
    · rw [← mem_visible rfl, extended.visible, ← mem_visible rfl (c := c)]
      unfold drainEffects
      split
      · rename_i leaving
        simp [leaving, goes.mpr some, empty]
      · rename_i staying
        simp [staying]
  · refine ⟨extended.sound, extended.state, rest, goes, ?_, ?_⟩
    · rw [← silentAfterFin_visible, extended.visible]
      exact written
    · rw [← mem_visible rfl, extended.visible, ← mem_visible rfl (c := c), goes]
      simp only [List.singleton_append, List.mem_cons, reduceCtorEq, false_or, iff_self_or]
      rintro ⟨-, some, empty⟩
      rcases stays with none | more
      · exact absurd none some
      · exact absurd empty more

/-- The loop of `handleWrite` always tries a write, and goes on to the next one when it
has emptied the buffer and closed the write side. -/
theorem handleWriteLoop_silent (sound : c.Sound) (results : List IoResult)
    (wrote : c.handleWriteLoop results = .ok after) :
    SilentAfterFin after.trace ↔ SilentAfterFin c.trace ∧ .shutdownWrite ∉ c.trace ∧
      ¬ (c.state = .kDisconnecting ∧ c.readable ≠ [] ∧
        drains c.readable.length results = true) := by
  induction results generalizing c with
  | nil =>
      obtain ⟨middle, again, returned, -, -, -, -, silent, -⟩ :=
        writeOnce_silent sound (.error .EAGAIN)
      simp only [handleWriteLoop, returned] at wrote
      cases wrote
      simp [silent, drains]
  | cons result results ih =>
      obtain ⟨middle, again, returned, kept, state, rest, goes, silent, closed⟩ :=
        writeOnce_silent sound result
      simp only [handleWriteLoop, returned, Bind.bind, Except.bind] at wrote
      cases again with
      | false =>
          cases wrote
          have none : result.accepted c.readable = [] := by simpa using goes
          have open' : ¬ (c.readable ≠ [] ∧
              drains c.readable.length (result :: results) = true) := by
            rintro ⟨some, emptied⟩
            exact ((drains_cons_iff result results _ some).mp emptied).1 none
          rw [silent]
          refine and_congr_right fun _ => (and_iff_left ?_).symm
          rintro ⟨-, drained⟩
          exact open' drained
      | true =>
          have accepts := goes.mp rfl
          have some : c.readable ≠ [] := by
            intro empty
            rw [empty, IoResult.accepted_nil] at accepts
            exact accepts rfl
          rw [ih kept wrote, silent, closed, state, drains_cons_iff result results _ some, ← rest]
          by_cases shut : .shutdownWrite ∈ c.trace
          · simp [shut]
          · by_cases emptied : middle.readable = []
            · simp [shut, emptied, accepts, some]
            · simp [shut, emptied, accepts, some]

end TcpConnection

namespace Session

/-- The functor the loop is about to run tries no transfer on a socket whose write side has
been closed. -/
def FunctorSilent (c : TcpConnection) : List Functor → Prop
  | .sendInLoop _ :: _ => .shutdownWrite ∈ c.trace → c.canWriteDirectly = false
  | .sendFileInLoop _ _ _ :: _ =>
      .shutdownWrite ∈ c.trace → c.state = .kDisconnecting ∨ c.canWriteDirectly = false
  | _ => True

/-- Functors try no transfer after `shutdownWrite`, and `handleWrite` neither runs with write
interest after it nor empties the buffer of a disconnecting connection. -/
def StaysSilent (s : Session) : SessionEvent → Prop
  | .runFunctor _ => FunctorSilent s.conn s.conn.functors
  | .handleWrite results =>
      s.conn.channel.isWriting = true → .shutdownWrite ∉ s.conn.trace ∧
        ¬ (s.conn.state = .kDisconnecting ∧ s.conn.readable ≠ [] ∧
          TcpConnection.drains s.conn.readable.length results = true)
  | _ => True

instance (c : TcpConnection) : ∀ functors, Decidable (FunctorSilent c functors)
  | .sendInLoop _ :: _ =>
      inferInstanceAs (Decidable (.shutdownWrite ∈ c.trace → c.canWriteDirectly = false))
  | .sendFileInLoop _ _ _ :: _ =>
      inferInstanceAs (Decidable (.shutdownWrite ∈ c.trace →
        c.state = .kDisconnecting ∨ c.canWriteDirectly = false))
  | [] | .connectEstablished :: _ | .connectDestroyed :: _ | .shutdownInLoop :: _
  | .writeComplete :: _ | .highWaterMark _ :: _ => isTrue trivial

instance (s : Session) : ∀ event, Decidable (s.StaysSilent event)
  | .runFunctor _ => inferInstanceAs (Decidable (FunctorSilent s.conn s.conn.functors))
  | .handleWrite results =>
      inferInstanceAs (Decidable (s.conn.channel.isWriting = true →
        .shutdownWrite ∉ s.conn.trace ∧
          ¬ (s.conn.state = .kDisconnecting ∧ s.conn.readable ≠ [] ∧
            TcpConnection.drains s.conn.readable.length results = true)))
  | .handleEvent _ | .handleClose | .handleError | .handleRead _ | .doPendingFunctors
  | .retrieve _ | .send _ _ | .sendFile _ _ _ _ _ | .shutdown | .other _ | .advance _
  | .storeOverwritten _ | .removeConnectionInLoop | .destroyServer _ => isTrue trivial

end Session

namespace TcpConnection

variable {c after : TcpConnection}

theorem handleClose_silent (sound : c.Sound) (closed : c.handleClose = .ok after) :
    SilentAfterFin after.trace ↔ SilentAfterFin c.trace := by
  obtain ⟨next, returned, switched, -⟩ := handleClose_ok sound
  cases returned.symm.trans closed
  exact switched.silent_iff (by simp [Idle, Effect.isTransfer])

theorem connectDestroyed_silent (sound : c.Sound) (ran : c.connectDestroyed = .ok after) :
    SilentAfterFin after.trace ↔ SilentAfterFin c.trace := by
  obtain ⟨next, returned, outcome⟩ := connectDestroyed_ok sound
  cases returned.symm.trans ran
  split at outcome
  · exact outcome.1.silent_iff (by simp [Idle, Effect.isTransfer])
  · exact outcome.1.silent_iff (by simp [Idle])

theorem readOnce_silent (sound : c.Sound) {result : ReadResult} {again : Bool}
    (read : c.readOnce result = .ok (after, again)) :
    SilentAfterFin after.trace ↔ SilentAfterFin c.trace := by
  cases closes : c.closesOnRead result with
  | true =>
      obtain ⟨next, returned, switched, -⟩ := readOnce_closes sound result closes
      cases returned.symm.trans read
      exact switched.silent_iff (by simp [Idle, Effect.isTransfer])
  | false =>
      obtain ⟨-, -, -, -, -, -, trace⟩ := (readOnce_keeps sound result closes).of_ok read
      dsimp only at trace
      rcases trace with same | grown
      · rw [same]
      · have idle : Idle [.messageCallback] := by simp [Idle, Effect.isTransfer]
        rw [grown]
        exact silentAfterFin_idle idle c.trace

theorem handleWrite_silent (sound : c.Sound) {results : List IoResult}
    (wrote : c.handleWrite results = .ok after) :
    SilentAfterFin after.trace ↔ SilentAfterFin c.trace ∧
      (c.channel.isWriting = true → .shutdownWrite ∉ c.trace ∧
        ¬ (c.state = .kDisconnecting ∧ c.readable ≠ [] ∧
          drains c.readable.length results = true)) := by
  unfold handleWrite at wrote
  split at wrote
  · rename_i writing
    simp only [handleWriteLoop_silent sound results wrote, writing, true_implies]
  · rename_i idle
    cases wrote
    simp [idle]

theorem shutdownInLoop_silent (sound : c.Sound) :
    SilentAfterFin c.shutdownInLoop.trace ↔ SilentAfterFin c.trace := by
  apply (shutdownInLoop_extends sound).silent_iff
  split <;> simp [Idle, Effect.isTransfer]

theorem emit_silent (sound : c.Sound) {effect : Effect} (visible : effect.isVisible = true)
    (idle : effect.isTransfer = false) :
    SilentAfterFin (c.emit effect).trace ↔ SilentAfterFin c.trace :=
  (emit_extends sound effect visible).silent_iff (by simp [Idle, idle])

theorem queueInLoop_silent (c : TcpConnection) (functor : Functor) :
    SilentAfterFin (c.queueInLoop functor).trace ↔ SilentAfterFin c.trace := by
  have idle : Idle [.queueInLoop functor] := by simp [Idle, Effect.isTransfer]
  exact silentAfterFin_idle idle c.trace

theorem runFunctor_silent (sound : c.Sound) {functor : Functor} {result : IoResult}
    (ran : c.runFunctor functor result = .ok after) (functors : List Functor) :
    SilentAfterFin after.trace ↔
      SilentAfterFin c.trace ∧ Session.FunctorSilent c (functor :: functors) := by
  cases functor with
  | connectEstablished =>
      obtain ⟨next, returned, switched, -⟩ := connectEstablished_ok sound
      cases returned.symm.trans ran
      rw [switched.silent_iff (by simp [Idle, Effect.isTransfer])]
      exact (and_iff_left trivial).symm
  | connectDestroyed =>
      rw [connectDestroyed_silent sound ran]
      exact (and_iff_left trivial).symm
  | sendInLoop data => exact sendInLoop_silent sound ran
  | sendFileInLoop file offset count =>
      cases ran
      exact sendFileInLoop_silent sound file offset count result
  | shutdownInLoop =>
      cases ran
      rw [shutdownInLoop_silent sound]
      exact (and_iff_left trivial).symm
  | writeComplete =>
      cases ran
      exact (and_iff_left trivial).symm
  | highWaterMark pending =>
      cases ran
      exact (and_iff_left trivial).symm

end TcpConnection

namespace Session

variable {s after : Session}

theorem begin_silent (sound : s.conn.Sound) (call : UserCall) :
    SilentAfterFin (call.begin s.conn).trace ↔ SilentAfterFin s.conn.trace := by
  cases call with
  | queueSend data => exact TcpConnection.emit_silent sound rfl rfl
  | queueSendFile file offset count => exact TcpConnection.emit_silent sound rfl rfl
  | storeDisconnecting => exact Iff.rfl
  | queueShutdown => exact Iff.rfl

theorem advance_silent {index : Nat} (taken : s.advance index = .ok after) :
    SilentAfterFin after.conn.trace ↔ SilentAfterFin s.conn.trace := by
  obtain ⟨call, -, rfl⟩ := advance_ok taken
  cases call with
  | queueSend data => exact TcpConnection.queueInLoop_silent _ _
  | queueSendFile file offset count => exact TcpConnection.queueInLoop_silent _ _
  | storeDisconnecting => exact Iff.rfl
  | queueShutdown => exact TcpConnection.queueInLoop_silent _ _

/-- Another thread's step writes nothing to the socket and closes nothing. -/
theorem advance_closed {index : Nat} (taken : s.advance index = .ok after) :
    .shutdownWrite ∈ after.conn.trace ↔ .shutdownWrite ∈ s.conn.trace := by
  obtain ⟨call, -, rfl⟩ := advance_ok taken
  cases call with
  | queueSend data => simp [UserCall.advance, TcpConnection.queueInLoop]
  | queueSendFile file offset count => simp [UserCall.advance, TcpConnection.queueInLoop]
  | storeDisconnecting => exact Iff.rfl
  | queueShutdown => simp [UserCall.advance, TcpConnection.queueInLoop]

/-- Each step says whether the silence survives it. -/
theorem step_silent {event : SessionEvent} (leaving : s.conn.Leaving s.calls)
    (taken : s.step event = .ok after) :
    SilentAfterFin after.conn.trace ↔ SilentAfterFin s.conn.trace ∧ s.StaysSilent event := by
  have sound := leaving.sound
  cases step_inv taken with
  | handleWrite results rest conn waiting wrote =>
      exact TcpConnection.handleWrite_silent sound wrote
  | runFunctor result functor functors conn batch ran =>
      rw [TcpConnection.runFunctor_silent (sound.setBatch functors) ran functors, StaysSilent,
        batch]
      exact Iff.rfl
  | send data result conn up ran =>
      have open' := (leaving.connected up).1
      rw [TcpConnection.sendInLoop_silent (sound.emit _) ran,
        TcpConnection.emit_silent sound rfl rfl]
      simp [TcpConnection.emit, open', StaysSilent]
  | sendFile file offset count result between middle up other =>
      have open' := (leaving.connected up).1
      have accepted : SilentAfterFin (s.accept (fileSegment file offset count)).conn.trace ↔
          SilentAfterFin s.conn.trace := TcpConnection.emit_silent sound rfl rfl
      have middle_open : .shutdownWrite ∉ middle.conn.trace := by
        cases between with
        | none =>
            cases other
            simp [accept, TcpConnection.emit, open']
        | some index =>
            rw [advance_closed other]
            simp [accept, TcpConnection.emit, open']
      have middle_silent : SilentAfterFin middle.conn.trace ↔ SilentAfterFin s.conn.trace := by
        cases between with
        | none =>
            cases other
            exact accepted
        | some index => exact (advance_silent other).trans accepted
      rw [TcpConnection.sendFileInLoop_silent
        (interleave_sound (accept_sound sound _) other), middle_silent]
      simp [middle_open, StaysSilent]
  | shutdown up =>
      rw [TcpConnection.shutdownInLoop_silent (sound.setState _)]
      exact (and_iff_left trivial).symm
  | handleEvent revents idle between seen => exact (and_iff_left trivial).symm
  | handleClose rest conn waiting closed =>
      rw [TcpConnection.handleClose_silent sound closed]
      exact (and_iff_left trivial).symm
  | handleError rest conn waiting closed =>
      rw [TcpConnection.handleClose_silent sound closed]
      exact (and_iff_left trivial).symm
  | handleRead result rest conn again waiting read =>
      rw [TcpConnection.readOnce_silent sound read]
      exact (and_iff_left trivial).symm
  | doPendingFunctors idle between => exact (and_iff_left trivial).symm
  | retrieve len => exact (and_iff_left trivial).symm
  | sendRefused data result down => exact (and_iff_left trivial).symm
  | sendFileRefused file offset count result between down => exact (and_iff_left trivial).symm
  | shutdownRefused down => exact (and_iff_left trivial).symm
  | other call up first =>
      rw [begin_silent sound call]
      exact (and_iff_left trivial).symm
  | advance index _ moved =>
      rw [advance_silent moved]
      exact (and_iff_left trivial).symm
  | storeOverwritten index found down => exact (and_iff_left trivial).symm
  | removeConnectionInLoop closed =>
      rw [TcpConnection.queueInLoop_silent]
      exact (and_iff_left trivial).symm
  | destroyHere conn tabled idle ran =>
      rw [TcpConnection.connectDestroyed_silent sound ran]
      exact (and_iff_left trivial).symm
  | destroyElsewhere tabled =>
      rw [TcpConnection.queueInLoop_silent]
      exact (and_iff_left trivial).symm

/-- A run tries no transfer after `shutdownWrite` exactly when none of its functors does,
and `handleWrite` neither runs with write interest after it nor empties the buffer of a
disconnecting connection. -/
theorem silentAfterFin_iff (config : Config) (events : List SessionEvent) (s : Session)
    (reached : run step (start config) events = .ok s) :
    SilentAfterFin s.conn.trace ↔ Guarded step StaysSilent (start config) events := by
  have silent : SilentAfterFin (start config).conn.trace := ⟨trivial, nofun⟩
  rw [run_iff_guarded (fun s => s.conn.Leaving s.calls) (fun s => SilentAfterFin s.conn.trace)
    (fun _ _ _ leaving taken => step_leaving leaving taken)
    (fun _ _ _ leaving taken => step_silent leaving taken) (start_leaving config) reached]
  exact and_iff_right silent

/-- A send and a shutdown with nothing buffered, and a send that comes too late. -/
theorem silentAfterFin_iff_direct :
    ∃ s, run step (start plainConfig) [.send ⟨[1], by decide⟩ (.count 1), .shutdown,
        .send ⟨[2], by decide⟩ (.count 1)] = .ok s ∧
      .shutdownWrite ∈ s.conn.trace ∧ SilentAfterFin s.conn.trace := by
  obtain ⟨s, reached, closed⟩ := (map_ok_iff _ _ _).mp
    (show (run step (start plainConfig) [.send ⟨[1], by decide⟩ (.count 1), .shutdown,
      .send ⟨[2], by decide⟩ (.count 1)]).map
      (fun s => decide (.shutdownWrite ∈ s.conn.trace)) = .ok true by decide +kernel)
  exact ⟨s, reached, of_decide_eq_true closed,
    (silentAfterFin_iff plainConfig _ s reached).mpr (by decide +kernel)⟩

/-- A shutdown while output is buffered: the loop that empties the buffer closes the write
side and then writes once more, with length zero. -/
theorem drainedShutdown_not_silent :
    ¬ ∀ (config : Config) (events : List SessionEvent) (s : Session),
      run step (start config) events = .ok s → SilentAfterFin s.conn.trace := by
  intro always
  obtain ⟨s, reached, trace⟩ := (map_ok_iff _ _ _).mp
    (show (run step (start plainConfig) [.send ⟨[1], by decide⟩ (.error .EAGAIN), .shutdown,
      .handleEvent EPOLLOUT, .handleWrite [.count 1]]).map (fun s => s.conn.trace) =
        .ok [.write [], .shutdownWrite, .write [1], .write [], .sendInLoop [1], .accept [1],
          .connectionCallback true] by decide +kernel)
  have silent := always plainConfig _ s reached
  rw [trace] at silent
  exact silent.2 rfl List.mem_cons_self

end Session

end KamaWebserver
