import KamaWebserver.Library.Transition
import KamaWebserver.TcpConnectionEvents

set_option autoImplicit false

namespace KamaWebserver

open Outcome Transition

/-- The order a connection goes through, which is not that of the enumeration. -/
def ConnState.rank : ConnState → Nat
  | .kConnecting => 0
  | .kConnected => 1
  | .kDisconnecting => 2
  | .kDisconnected => 3

/-- Who calls a function of the connection. -/
inductive Caller
  | loop
  | user (thread : Nat)
  deriving DecidableEq, Repr

/-- `state_` with the values it has held before, newest first. `destroying` says that
`connectDestroyed` is between its test and its store, `shutdowns` holds the callers that are
so in `shutdown`. -/
structure ConnectionState where
  state : ConnState
  earlier : List ConnState
  established : Bool
  destroying : Bool
  shutdowns : List Caller

/-- The loads and stores of `state_`, each of them atomic. `testConnected` is the load by which
`send` and `sendFile` begin. -/
inductive StateEvent
  | connectEstablished
  | handleClose
  | testConnectDestroyed
  | storeConnectDestroyed
  | testShutdown (caller : Caller)
  | storeShutdown (caller : Caller)
  | testConnected (caller : Caller)
  deriving DecidableEq

namespace ConnectionState

/-- The constructor of the connection. -/
def start : ConnectionState := ⟨.kConnecting, [], false, false, []⟩

def store (s : ConnectionState) (value : ConnState) : ConnectionState :=
  { s with state := value, earlier := s.state :: s.earlier }

/-- A caller is in no function that it has begun; only the loop runs `connectDestroyed`. -/
def Free (s : ConnectionState) (caller : Caller) : Prop :=
  caller ∉ s.shutdowns ∧ (caller = .loop → s.destroying = false)

instance (s : ConnectionState) (caller : Caller) : Decidable (s.Free caller) := by
  unfold Free
  infer_instance

/-- The loop's queue runs `connectEstablished` once and before anything else of the connection. -/
def step (s : ConnectionState) : StateEvent → Except Fault ConnectionState
  | .connectEstablished =>
      if s.established = false ∧ s.Free .loop then
        .ok { s.store .kConnected with established := true }
      else .error .notEnabled
  | .handleClose =>
      if s.established ∧ s.Free .loop then .ok (s.store .kDisconnected) else .error .notEnabled
  | .testConnectDestroyed =>
      if s.established ∧ s.Free .loop then .ok { s with destroying := s.state = .kConnected }
      else .error .notEnabled
  | .storeConnectDestroyed =>
      if s.destroying then .ok { s.store .kDisconnected with destroying := false }
      else .error .notEnabled
  | .testShutdown caller =>
      if s.Free caller then
        .ok (if s.state = .kConnected then { s with shutdowns := caller :: s.shutdowns } else s)
      else .error .notEnabled
  | .storeShutdown caller =>
      if caller ∈ s.shutdowns then
        .ok { s.store .kDisconnecting with shutdowns := s.shutdowns.erase caller }
      else .error .notEnabled
  | .testConnected caller => if s.Free caller then .ok s else .error .notEnabled

/-- Every value `state_` has held is behind all later ones or equal to them. -/
def Forward (s : ConnectionState) : Prop :=
  (s.state :: s.earlier).Pairwise fun later earlier => earlier.rank ≤ later.rank

/-- No other thread stores kDisconnecting into a connection that is down by then. -/
def Guard (s : ConnectionState) : StateEvent → Prop
  | .storeShutdown (.user _) => s.state ≠ .kDisconnected
  | _ => True

/-- What the loop's thread and its order of calls guarantee. -/
structure Ordered (s : ConnectionState) : Prop where
  connecting : s.established = false → s.state = .kConnecting
  established : s.established → s.state ≠ .kConnecting
  tested : ∀ caller ∈ s.shutdowns, s.established
  loop : .loop ∈ s.shutdowns → s.state ≠ .kDisconnected ∧ s.destroying = false
  destroying : s.destroying → s.established ∧ .loop ∉ s.shutdowns

variable {s next : ConnectionState}

/-- A store keeps the order exactly when it does not fall behind the value it replaces. -/
theorem forward_store (s : ConnectionState) (value : ConnState) :
    (s.store value).Forward ↔ s.Forward ∧ s.state.rank ≤ value.rank := by
  unfold Forward store
  constructor
  · intro forward
    obtain ⟨last, before⟩ := List.pairwise_cons.mp forward
    exact ⟨before, last s.state List.mem_cons_self⟩
  · rintro ⟨forward, ahead⟩
    refine List.pairwise_cons.mpr ⟨fun value' held => ?_, forward⟩
    rcases List.mem_cons.mp held with rfl | older
    · exact ahead
    · exact ((List.pairwise_cons.mp forward).1 value' older).trans ahead

theorem rank_le_kDisconnected (state : ConnState) : state.rank ≤ ConnState.kDisconnected.rank := by
  cases state <;> decide

theorem rank_le_kDisconnecting (state : ConnState) :
    state.rank ≤ ConnState.kDisconnecting.rank ↔ state ≠ .kDisconnected := by
  cases state <;> decide

theorem start_ordered : start.Ordered :=
  ⟨fun _ => rfl, by simp [start], by simp [start], by simp [start], by simp [start]⟩

theorem step_ordered (ordered : s.Ordered) {event : StateEvent}
    (taken : s.step event = .ok next) : next.Ordered := by
  obtain ⟨connecting, established, tested, loop, destroying⟩ := ordered
  cases event with
  | connectEstablished =>
      obtain ⟨⟨first, free, idle⟩, made⟩ := guard_ok taken
      obtain rfl := Except.ok.inj made
      refine ⟨by simp, by simp [store], by simp, fun inside => absurd inside free, ?_⟩
      intro busy
      exact absurd ((idle rfl).symm.trans busy) (by simp)
  | handleClose =>
      obtain ⟨⟨up, free, idle⟩, made⟩ := guard_ok taken
      obtain rfl := Except.ok.inj made
      exact ⟨fun down => absurd (down.symm.trans up) (by simp), by simp [store], tested,
        fun inside => absurd inside free, destroying⟩
  | testConnectDestroyed =>
      obtain ⟨⟨up, free, idle⟩, made⟩ := guard_ok taken
      obtain rfl := Except.ok.inj made
      exact ⟨connecting, established, tested, fun inside => absurd inside free,
        fun _ => ⟨up, free⟩⟩
  | storeConnectDestroyed =>
      obtain ⟨busy, made⟩ := guard_ok taken
      obtain rfl := Except.ok.inj made
      obtain ⟨up, free⟩ := destroying busy
      exact ⟨fun down => absurd (down.symm.trans up) (by simp), by simp [store], tested,
        fun inside => absurd inside free, by simp⟩
  | testShutdown caller =>
      obtain ⟨⟨free, idle⟩, made⟩ := guard_ok taken
      obtain rfl := Except.ok.inj made
      split
      · rename_i connected
        have up : s.established = true := by
          by_contra down
          have := connecting (by simpa using down)
          exact absurd (connected.symm.trans this) (by decide)
        refine ⟨connecting, established, fun _ _ => up, fun inside => ?_, fun busy => ⟨up, ?_⟩⟩
        · rcases List.mem_cons.mp inside with rfl | older
          · exact ⟨by simp [connected], idle rfl⟩
          · exact loop older
        · rintro inside
          rcases List.mem_cons.mp inside with rfl | older
          · exact absurd ((idle rfl).symm.trans busy) (by simp)
          · exact (destroying busy).2 older
      · exact ⟨connecting, established, tested, loop, destroying⟩
  | storeShutdown caller =>
      obtain ⟨inside, made⟩ := guard_ok taken
      obtain rfl := Except.ok.inj made
      have up := tested caller inside
      exact ⟨fun down => absurd (down.symm.trans up) (by simp), by simp [store],
        fun other left => tested other (List.mem_of_mem_erase left),
        fun left => ⟨by simp [store], (loop (List.mem_of_mem_erase left)).2⟩,
        fun busy => ⟨up, fun left => (destroying busy).2 (List.mem_of_mem_erase left)⟩⟩
  | testConnected caller =>
      obtain ⟨-, made⟩ := guard_ok taken
      obtain rfl := Except.ok.inj made
      exact ⟨connecting, established, tested, loop, destroying⟩

/-- Of all accesses only a late store of another thread's `shutdown` can go back. -/
theorem step_forward (ordered : s.Ordered) {event : StateEvent}
    (taken : s.step event = .ok next) : next.Forward ↔ s.Forward ∧ s.Guard event := by
  cases event with
  | connectEstablished =>
      obtain ⟨⟨first, -⟩, made⟩ := guard_ok taken
      obtain rfl := Except.ok.inj made
      have behind : s.state.rank ≤ ConnState.kConnected.rank := by
        rw [ordered.connecting first]
        decide
      exact (forward_store s .kConnected).trans (by simp [behind, Guard])
  | handleClose =>
      obtain ⟨-, made⟩ := guard_ok taken
      obtain rfl := Except.ok.inj made
      exact (forward_store s .kDisconnected).trans (by simp [rank_le_kDisconnected, Guard])
  | testConnectDestroyed =>
      obtain ⟨-, made⟩ := guard_ok taken
      obtain rfl := Except.ok.inj made
      simp [Forward, Guard]
  | storeConnectDestroyed =>
      obtain ⟨-, made⟩ := guard_ok taken
      obtain rfl := Except.ok.inj made
      exact (forward_store s .kDisconnected).trans (by simp [rank_le_kDisconnected, Guard])
  | testShutdown caller =>
      obtain ⟨-, made⟩ := guard_ok taken
      obtain rfl := Except.ok.inj made
      split <;> simp [Forward, Guard]
  | storeShutdown caller =>
      obtain ⟨inside, made⟩ := guard_ok taken
      obtain rfl := Except.ok.inj made
      refine (forward_store s .kDisconnecting).trans ?_
      rw [rank_le_kDisconnecting]
      cases caller with
      | user thread => rfl
      | loop => simp [(ordered.loop inside).1, Guard]
  | testConnected caller =>
      obtain ⟨-, made⟩ := guard_ok taken
      obtain rfl := Except.ok.inj made
      simp [Guard]

/-- `state_` goes forward in a run exactly when no other thread's `shutdown` stores after the
connection is down. -/
theorem forward_iff_guarded {events : List StateEvent} (reached : run step start events = .ok s) :
    s.Forward ↔ Guarded step Guard start events := by
  have fresh : start.Forward := by simp [Forward, start]
  have decided := run_iff_guarded Ordered Forward
    (fun _ _ _ ordered taken => step_ordered ordered taken)
    (fun _ _ _ ordered taken => step_forward ordered taken) start_ordered reached
  exact decided.trans (and_iff_right fresh)

/-- A `shutdown` whose store comes in time, and the close after it. -/
theorem forward_iff_guarded_inTime :
    Forward ⟨.kDisconnected, [.kDisconnecting, .kConnected, .kConnecting], true, false, []⟩ ↔
      Guarded step Guard start [.connectEstablished, .testShutdown (.user 1),
        .storeShutdown (.user 1), .handleClose] :=
  forward_iff_guarded rfl

/-- The peer closes between the test and the store of a `shutdown`. -/
theorem shutdownOvertaken_backward :
    ∃ s, run step start [.connectEstablished, .testShutdown (.user 1), .handleClose,
      .storeShutdown (.user 1)] = .ok s ∧ ¬ s.Forward := by
  refine ⟨_, rfl, fun forward => ?_⟩
  have back := (List.pairwise_cons.mp forward).1 .kDisconnected List.mem_cons_self
  exact absurd back (by decide)

/-- The functions of the connection that store to `state_`. -/
inductive StateCall
  | connectEstablished
  | handleClose
  | connectDestroyed
  | shutdown

namespace StateCall

/-- The accesses of a call on the loop's thread, when none of another thread comes between. -/
def accesses (state : ConnState) : StateCall → List StateEvent
  | .connectEstablished => [.connectEstablished]
  | .handleClose => [.handleClose]
  | .connectDestroyed =>
      if state = .kConnected then [.testConnectDestroyed, .storeConnectDestroyed]
      else [.testConnectDestroyed]
  | .shutdown =>
      if state = .kConnected then [.testShutdown .loop, .storeShutdown .loop]
      else [.testShutdown .loop]

/-- The whole call, as the connection makes it. -/
def call (c : TcpConnection) : StateCall → Except Fault TcpConnection
  | .connectEstablished => c.connectEstablished
  | .handleClose => c.handleClose
  | .connectDestroyed => c.connectDestroyed
  | .shutdown => .ok c.shutdown

/-- The functor queue runs `connectEstablished` before all others. -/
def first : StateCall → Bool
  | .connectEstablished => true
  | _ => false

end StateCall

theorem shutdownInLoop_state (c : TcpConnection) : c.shutdownInLoop.state = c.state := by
  unfold TcpConnection.shutdownInLoop
  split <;> rfl

/-- A call on the loop's thread that no store comes between takes `state_` where the
connection's own function does. -/
theorem accesses_agree {c : TcpConnection} (sound : c.Sound) (same : s.state = c.state)
    (free : s.Free .loop) (call : StateCall) (begun : s.established = !call.first) :
    ∃ after next, call.call c = .ok after ∧ run step s (call.accesses c.state) = .ok next ∧
      next.state = after.state := by
  obtain ⟨outside, idle⟩ := free
  have idle := idle rfl
  cases call with
  | connectEstablished =>
      obtain ⟨after, returned, switched, -⟩ := TcpConnection.connectEstablished_ok sound
      refine ⟨after, { s.store .kConnected with established := true }, returned, ?_,
        switched.state.symm⟩
      simp [StateCall.accesses, run, step, begun, StateCall.first, Free, outside, idle]
  | handleClose =>
      obtain ⟨after, returned, switched, -⟩ := TcpConnection.handleClose_ok sound
      refine ⟨after, s.store .kDisconnected, returned, ?_, switched.state.symm⟩
      simp [StateCall.accesses, run, step, begun, StateCall.first, Free, outside, idle]
  | connectDestroyed =>
      obtain ⟨after, returned, switched⟩ := TcpConnection.connectDestroyed_ok sound
      by_cases up : c.state = .kConnected
      · rw [if_pos up] at switched
        refine ⟨after, { s.store .kDisconnected with destroying := false }, returned, ?_,
          switched.1.state.symm⟩
        simp [StateCall.accesses, run, step, begun, StateCall.first, Free, outside, idle, up, same,
          store]
      · rw [if_neg up] at switched
        refine ⟨after, { s with destroying := false }, returned, ?_,
          same.trans switched.1.state.symm⟩
        simp [StateCall.accesses, run, step, begun, StateCall.first, Free, outside, idle, up, same]
  | shutdown =>
      by_cases up : c.state = .kConnected
      · refine ⟨c.shutdown, { s.store .kDisconnecting with shutdowns := s.shutdowns }, rfl, ?_, ?_⟩
        · simp [StateCall.accesses, run, step, Free, outside, idle, up, same, store]
        · simp [TcpConnection.shutdown, up, shutdownInLoop_state, store, TcpConnection.setState]
      · refine ⟨c.shutdown, s, rfl, ?_, ?_⟩
        · simp [StateCall.accesses, run, step, Free, outside, idle, up, same]
        · simpa [TcpConnection.shutdown, up] using same

end ConnectionState

end KamaWebserver
