import KamaWebserver.Session

set_option autoImplicit false

namespace KamaWebserver

open Outcome Trace Transition

namespace Effect

/-- A system call that offers bytes to the socket. -/
def isTransfer : Effect → Bool
  | .write _ => true
  | .sendfile _ => true
  | _ => false

end Effect

namespace Functor

/-- The two functors of the sending functions. -/
def isSend : Functor → Bool
  | .sendInLoop _ => true
  | .sendFileInLoop _ _ _ => true
  | _ => false

/-- `len` of `sendInLoop`, `count` of `sendFileInLoop`. -/
def size : Functor → Nat
  | .sendInLoop data => data.bytes.length
  | .sendFileInLoop _ _ count => count
  | _ => 0

end Functor

namespace TcpConnection

/-- No system call on the socket, no change of the output buffer, the mask or the
poller, and no functor queued. -/
structure Silent (c after : TcpConnection) : Prop where
  transfers : after.trace.filter Effect.isTransfer = c.trace.filter Effect.isTransfer
  outputBuffer : after.outputBuffer = c.outputBuffer
  channel : after.channel = c.channel
  poller : after.poller = c.poller
  pendingFunctors : after.pendingFunctors = c.pendingFunctors

/-- Running the functor returns and is silent. -/
def RunsSilently (c : TcpConnection) (functor : Functor) (result : IoResult) : Prop :=
  ∃ after, c.runFunctor functor result = .ok after ∧ c.Silent after

variable {c after : TcpConnection}

theorem Extends.transfers {left : List UInt8} {effects : List Effect}
    (extended : c.Extends after left effects) :
    after.trace.filter Effect.isTransfer =
      effects.filter Effect.isTransfer ++ c.trace.filter Effect.isTransfer := by
  have shown : ∀ trace : List Effect,
      (trace.filter Effect.isVisible).filter Effect.isTransfer =
        trace.filter Effect.isTransfer := by
    intro trace
    rw [List.filter_filter]
    congr 1
    funext effect
    cases effect <;> rfl
  have split := congrArg (List.filter Effect.isTransfer) extended.visible
  simpa only [TcpConnection.visible, List.filter_append, shown] using split

/-- A transfer is never silent. -/
theorem Extends.not_silent {left : List UInt8} {effects : List Effect} {effect : Effect}
    (extended : c.Extends after left effects) (inside : effect ∈ effects)
    (transfer : effect.isTransfer = true) : ¬ c.Silent after := by
  intro silent
  have count := congrArg List.length (extended.transfers.symm.trans silent.transfers)
  rw [List.length_append] at count
  have positive : 0 < (effects.filter Effect.isTransfer).length :=
    List.length_pos_of_mem (List.mem_filter.mpr ⟨inside, transfer⟩)
  omega

theorem sendInLoop_silent_iff (sound : c.Sound) (data : ByteString) (result : IoResult) :
    (∃ after, c.sendInLoop data result = .ok after ∧ c.Silent after) ↔
      data.bytes.length = 0 ∧ c.canWriteDirectly = false := by
  constructor
  · rintro ⟨after, ran, silent⟩
    have indirect : c.canWriteDirectly = false := by
      by_contra direct
      rw [Bool.not_eq_false] at direct
      obtain ⟨extended, -⟩ := (sendInLoop_direct sound direct data result).of_ok ran
      exact extended.not_silent List.mem_cons_self rfl silent
    refine ⟨?_, indirect⟩
    obtain ⟨-, bytes, -⟩ := (sendInLoop_buffered sound indirect data result).of_ok ran
    have same : after.readable = c.readable := congrArg Buffer.readable silent.outputBuffer
    have count := congrArg List.length (bytes.symm.trans same)
    rw [List.length_append] at count
    omega
  · rintro ⟨empty, indirect⟩
    have still : (c.emit (.sendInLoop data.bytes)).canWriteDirectly = false := indirect
    refine ⟨c.emit (.sendInLoop data.bytes), ?_, rfl, rfl, rfl, rfl, rfl⟩
    simp [sendInLoop, still, bufferRemaining, empty]

theorem sendFileInLoop_silent_iff (sound : c.Sound) (open' : c.state ≠ .kDisconnecting)
    (file : List UInt8) (offset count : Nat) (result : IoResult) :
    c.Silent (c.sendFileInLoop file offset count result) ↔
      count = 0 ∧ c.canWriteDirectly = false := by
  constructor
  · intro silent
    have indirect : c.canWriteDirectly = false := by
      by_contra direct
      rw [Bool.not_eq_false] at direct
      obtain ⟨left, extended, -⟩ := sendFileInLoop_extends sound file offset count result
      simp only [fileEffects, open', direct, ↓reduceIte] at extended
      exact extended.not_silent List.mem_cons_self rfl silent
    refine ⟨?_, indirect⟩
    by_contra some
    have queued := congrArg List.length silent.pendingFunctors
    simp only [sendFileInLoop, open', ↓reduceIte, indirect, Bool.false_eq_true, requeueFile,
      Nat.pos_of_ne_zero some, queueInLoop, List.length_append, List.length_cons] at queued
    omega
  · rintro ⟨rfl, indirect⟩
    simp only [sendFileInLoop, open', ↓reduceIte, indirect, Bool.false_eq_true, requeueFile,
      Nat.lt_irrefl]
    exact ⟨rfl, rfl, rfl, rfl, rfl⟩

/-- On a connection that is down, a sending functor is silent exactly when it has nothing
to send and output is pending. -/
theorem runsSilently_iff (sound : c.Sound) (down : c.state = .kDisconnected) (functor : Functor)
    (sends : functor.isSend = true) (result : IoResult) :
    c.RunsSilently functor result ↔ functor.size = 0 ∧ c.canWriteDirectly = false := by
  cases functor with
  | sendInLoop data => exact sendInLoop_silent_iff sound data result
  | sendFileInLoop file offset count =>
      have open' : c.state ≠ .kDisconnecting := by
        rw [down]
        decide
      rw [Functor.size, ← sendFileInLoop_silent_iff sound open' file offset count result]
      simp [RunsSilently, runFunctor]
  | connectEstablished => cases sends
  | connectDestroyed => cases sends
  | shutdownInLoop => cases sends
  | writeComplete => cases sends
  | highWaterMark pending => cases sends

end TcpConnection

namespace Session

/-- After the disconnect, a queued sending functor is silent exactly when it has nothing
to send and output is pending. -/
theorem disconnected_silent_iff (config : Config) (s : Session)
    (reached : Reachable step (start config) s) (down : s.conn.state = .kDisconnected)
    (functor : Functor) (sends : functor.isSend = true) (result : IoResult) :
    s.conn.RunsSilently functor result ↔
      functor.size = 0 ∧ s.conn.canWriteDirectly = false :=
  TcpConnection.runsSilently_iff (reachable_sound reached) down functor sends result

/-- The string of one byte. -/
def oneByte : ByteString := ⟨[1], by decide⟩

/-- Another thread's send is queued, then the peer hangs up. -/
theorem queuedSend_outlives_close :
    ∃ s, Reachable step (start plainConfig) s ∧ s.conn.state = .kDisconnected ∧
      s.conn.functors = [.sendInLoop oneByte] ∧ s.conn.canWriteDirectly = true := by
  refine ⟨_, ⟨[.other (.queueSend oneByte), .advance 0, .handleEvent EPOLLHUP, .handleClose,
    .doPendingFunctors], rfl⟩, rfl, rfl, ?_⟩
  decide +kernel

theorem disconnected_silent_iff_queuedSend :
    ∃ s, Reachable step (start plainConfig) s ∧
      (s.conn.RunsSilently (.sendInLoop oneByte) (.count 1) ↔
        Functor.size (.sendInLoop oneByte) = 0 ∧ s.conn.canWriteDirectly = false) := by
  obtain ⟨s, reached, down, -, -⟩ := queuedSend_outlives_close
  exact ⟨s, reached, disconnected_silent_iff plainConfig s reached down (.sendInLoop oneByte)
    rfl (.count 1)⟩

/-- A queued send writes to the socket after the connection was closed. -/
theorem queuedSend_not_silent :
    ¬ ∀ (config : Config) (s : Session), Reachable step (start config) s →
      s.conn.state = .kDisconnected → ∀ functor ∈ s.conn.functors, functor.isSend = true →
        ∀ result, s.conn.RunsSilently functor result := by
  intro silent
  obtain ⟨s, reached, down, batch, direct⟩ := queuedSend_outlives_close
  have ran := silent plainConfig s reached down (.sendInLoop oneByte) (by rw [batch]; simp) rfl
    (.count 1)
  rw [TcpConnection.runsSilently_iff (reachable_sound reached) down _ rfl, direct] at ran
  exact Bool.false_ne_true ran.2.symm

end Session

end KamaWebserver
