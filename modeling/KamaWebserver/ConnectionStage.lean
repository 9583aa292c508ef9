import KamaWebserver.ConnectionNames
import KamaWebserver.ServerConnection

set_option autoImplicit false

namespace KamaWebserver

/-- Nothing was overwritten, and only the connection's own entry erased. -/
def TableEffect.Own : TableEffect → Prop
  | .insert _ replaced => replaced = none
  | .erase conn erased => erased = none ∨ erased = some conn

namespace TcpServer

variable {threads : Nat}

/-- The loop whose queue a functor of the connection goes to. -/
def place (object : ServerConn threads) : ServerFunctor → Loop threads
  | .connectEstablished _ => object.loop
  | .connectDestroyed _ => object.loop
  | .removeConnectionInLoop _ => baseLoop threads

/-- How often a functor is still to be run. `running` is the one that has left its queue or
is called directly, and whose body is still to be run. -/
def outstanding (s : TcpServer threads) (running : Option ServerFunctor)
    (object : ServerConn threads) (functor : ServerFunctor) : Nat :=
  (s.queues (place object functor)).waiting.count functor + running.toList.count functor

def Held (s : TcpServer threads) (running : Option ServerFunctor) (conn : Nat)
    (object : ServerConn threads) : Prop :=
  s.Referenced conn object ∨ ∃ functor, running = some functor ∧ functor.conn = conn

/-- Where a connection is between its accept and its end. `filed` says that the table holds
it, `count` how often each functor is still to be run. -/
inductive Stage (conn : Nat) (c : TcpConnection) (filed : Prop) (count : ServerFunctor → Nat) :
    Prop
  | fresh (index : c.channel.index = .kNew) (opened : c.closeCallbacks = 0) (tabled : filed)
      (establishing : count (.connectEstablished conn) = 1)
      (removing : count (.removeConnectionInLoop conn) = 0)
      (destroying : count (.connectDestroyed conn) = 0)
  | up (index : c.channel.index = .kAdded) (opened : c.closeCallbacks = 0) (tabled : filed)
      (establishing : count (.connectEstablished conn) = 0)
      (removing : count (.removeConnectionInLoop conn) = 0)
      (destroying : count (.connectDestroyed conn) = 0)
  | down (state : c.state = .kDisconnected) (closed : 0 < c.closeCallbacks)
      (establishing : count (.connectEstablished conn) = 0)
      (removing : filed → 0 < count (.removeConnectionInLoop conn))
      (destroying : c.channel.index ≠ .kNew →
        0 < count (.removeConnectionInLoop conn) + count (.connectDestroyed conn))

structure Known (s : TcpServer threads) (conn : Nat) (object : ServerConn threads) : Prop where
  numbered : conn < s.nextConnId
  named : object.name = connName s.name s.ipPort conn
  self : object.conn.channel.self = conn
  writing : object.conn.channel.isWriting = false
  input : object.conn.inputBuffer.Valid
  output : object.conn.outputBuffer.Valid

/-- What every step keeps. No two connections that something holds have one descriptor, the
pollers know the channels of those, and of no other channel. -/
structure Consistent (running : Option ServerFunctor) (s : TcpServer threads) : Prop where
  short : s.ipPort.length ≤ 21
  below : s.nextConnId ≤ intMax
  known : ∀ conn object, s.objects conn = some object → s.Known conn object
  filed : ∀ name conn, s.connections name = some conn →
    ∃ object, s.objects conn = some object ∧ object.name = name
  placed : ∀ loop, ∀ functor ∈ (s.queues loop).content,
    ∃ object, s.objects functor.conn = some object ∧ loop = place object functor
  called : ∀ functor, running = some functor → ∃ object, s.objects functor.conn = some object
  handled : ∀ loop, ∀ entry ∈ s.handlers loop, ∃ object, s.objects entry.1 = some object ∧
    object.loop = loop ∧ object.conn.channel.index ≠ .kNew
  stage : ∀ conn object, s.objects conn = some object →
    Stage conn object.conn (s.connections object.name = some conn) (s.outstanding running object)
  apart : ∀ one two first second, s.objects one = some first → s.objects two = some second →
    s.Held running one first → s.Held running two second →
    first.conn.channel.fd = second.conn.channel.fd → one = two
  registered : ∀ conn object, s.objects conn = some object → s.Held running conn object →
    (s.pollers object.loop).Registered object.conn.channel
  vacant : ∀ loop fd, (∀ conn object, s.objects conn = some object → object.loop = loop →
    object.conn.channel.fd = fd → object.conn.channel.index = .kNew) →
    (s.pollers loop).channels fd = none ∧ (s.pollers loop).interest fd = none
  ledger : ∀ effect ∈ s.trace, effect.Own

variable {s : TcpServer threads} {running : Option ServerFunctor} {conn : Nat}
  {object : ServerConn threads}

theorem consistent_create (config : ServerConfig) : (create threads config).Consistent none := by
  refine ⟨config.listenAddr.toIpPort_length, by simp [create, intMax], ?_, ?_, ?_, ?_, ?_, ?_, ?_,
    ?_, fun _ _ _ => ⟨rfl, rfl⟩, ?_⟩
  · intro conn object there
    simp [create] at there
  · intro name conn tabled
    simp [create] at tabled
  · intro loop functor inside
    simp [create, BatchQueue.empty, BatchQueue.content] at inside
  · intro functor running
    simp at running
  · intro loop entry inside
    simp [create] at inside
  · intro conn object there
    simp [create] at there
  · intro one two first second there
    simp [create] at there
  · intro conn object there
    simp [create] at there
  · intro effect inside
    simp [create] at inside

theorem Stage.congr {c after : TcpConnection} {filed filed' : Prop}
    {count count' : ServerFunctor → Nat} (stage : Stage conn c filed count)
    (channel : after.channel = c.channel) (state : after.state = c.state)
    (callbacks : after.closeCallbacks = c.closeCallbacks) (same : filed' ↔ filed)
    (counts : ∀ functor, functor.conn = conn → count' functor = count functor) :
    Stage conn after filed' count' := by
  cases stage with
  | fresh index opened tabled establishing removing destroying =>
      exact .fresh (channel ▸ index) (callbacks.trans opened) (same.mpr tabled)
        ((counts _ rfl).trans establishing) ((counts _ rfl).trans removing)
        ((counts _ rfl).trans destroying)
  | up index opened tabled establishing removing destroying =>
      exact .up (channel ▸ index) (callbacks.trans opened) (same.mpr tabled)
        ((counts _ rfl).trans establishing) ((counts _ rfl).trans removing)
        ((counts _ rfl).trans destroying)
  | down down closed establishing removing destroying =>
      refine .down (state.trans down) (callbacks ▸ closed) ((counts _ rfl).trans establishing)
        (fun tabled => ?_) (fun index => ?_)
      · rw [counts _ rfl]
        exact removing (same.mp tabled)
      · rw [counts _ rfl, counts _ rfl]
        exact destroying (channel ▸ index)

theorem held_of_outstanding {functor : ServerFunctor} (owner : functor.conn = conn)
    (some : 0 < s.outstanding running object functor) : s.Held running conn object := by
  by_cases waits : functor ∈ (s.queues (place object functor)).waiting
  · exact .inl (.inr ⟨_, functor, BatchQueue.mem_content_of_waiting waits, owner⟩)
  · rw [outstanding, List.count_eq_zero.mpr waits, Nat.zero_add, List.count_pos_iff,
      Option.mem_toList] at some
    exact .inr ⟨functor, some, owner⟩

/-- What a poller knows of is held. -/
theorem Consistent.held_of_index (consistent : s.Consistent running)
    (there : s.objects conn = some object) (index : object.conn.channel.index ≠ .kNew) :
    s.Held running conn object := by
  cases consistent.stage conn object there with
  | fresh new _ _ _ _ _ => exact absurd new index
  | up _ _ tabled _ _ _ => exact .inl (.inl tabled)
  | down _ _ _ _ destroying =>
      rcases Nat.add_pos_iff_pos_or_pos.mp (destroying index) with removing | destroying
      · exact held_of_outstanding rfl removing
      · exact held_of_outstanding rfl destroying

theorem Consistent.ready (consistent : s.Consistent running)
    (there : s.objects conn = some object) (held : s.Held running conn object) :
    TcpConnection.Ready { object.conn with poller := s.pollers object.loop } :=
  have known := consistent.known conn object there
  ⟨consistent.registered conn object there held, known.writing, known.input, known.output⟩

end TcpServer

end KamaWebserver
