import KamaWebserver.Library.BatchQueue
import KamaWebserver.Session

set_option autoImplicit false

namespace KamaWebserver

/-- An IPv4 address and a port, in host order. -/
structure InetAddress where
  octets : UInt8 × UInt8 × UInt8 × UInt8
  port : UInt16

def InetAddress.toIp (addr : InetAddress) : String :=
  let (a, b, c, d) := addr.octets
  toString a.toNat ++ "." ++ toString b.toNat ++ "." ++ toString c.toNat ++ "." ++
    toString d.toNat

def InetAddress.toIpPort (addr : InetAddress) : String :=
  addr.toIp ++ ":" ++ toString addr.port.toNat

/-- `name_ + buf`, where `snprintf` leaves at most 63 characters in `buf`. -/
def connName (name ipPort : String) (nextConnId : Nat) : String :=
  name ++ String.ofList (("-" ++ ipPort ++ "#" ++ toString nextConnId).toList.take 63)

/-- The largest `int`. -/
def intMax : Nat := 2 ^ 31 - 1

/-- What the loops' queues hold. A connection is known by the number of its accept. -/
inductive ServerFunctor
  | connectEstablished (conn : Nat)
  | connectDestroyed (conn : Nat)
  | removeConnectionInLoop (conn : Nat)
  deriving DecidableEq

/-- The connection whose `TcpConnectionPtr` the functor holds. -/
def ServerFunctor.conn : ServerFunctor → Nat
  | .connectEstablished conn => conn
  | .connectDestroyed conn => conn
  | .removeConnectionInLoop conn => conn

/-- What happens to the table, with the entry that was there. -/
inductive TableEffect
  | insert (conn : Nat) (replaced : Option Nat)
  | erase (conn : Nat) (erased : Option Nat)
  deriving DecidableEq

/-- The base loop, and behind it the loops of the pool's threads. -/
abbrev Loop (threads : Nat) := Fin (threads + 1)

def baseLoop (threads : Nat) : Loop threads := ⟨0, Nat.succ_pos threads⟩

/-- A `TcpConnection` object with what it was given for its name and loop. The poller of
`conn` stands for its loop's while one of its functions runs. -/
structure ServerConn (threads : Nat) where
  name : String
  loop : Loop threads
  conn : TcpConnection

structure ServerConfig where
  name : String
  listenAddr : InetAddress
  writeCompleteCallback : Bool

/-- A server with its loops. `handlers` are the callbacks a loop has still to run for the
channel at hand. The trace is newest first. -/
structure TcpServer (threads : Nat) where
  name : String
  ipPort : String
  writeCompleteCallback : Bool
  next : Nat
  nextConnId : Nat
  connections : String → Option Nat
  objects : Nat → Option (ServerConn threads)
  pollers : Loop threads → EPollPoller
  queues : Loop threads → BatchQueue ServerFunctor
  handlers : Loop threads → List (Nat × Handler)
  trace : List TableEffect

/-- The steps of the loops: an accept in the base loop, epoll's report of a descriptor, the
next callback of the channel it stored for that, and the three parts of
`doPendingFunctors`. `retrieve` is the application's, for the channel at hand. -/
inductive ServerEvent (threads : Nat)
  | accept (fd : Nat)
  | handleEvent (loop : Loop threads) (fd : Nat) (revents : EventMask)
  | runHandler (loop : Loop threads) (read : ReadResult) (writes : List IoResult)
  | retrieve (loop : Loop threads) (len : Nat)
  | swapFunctors (loop : Loop threads)
  | runFunctor (loop : Loop threads)
  | endFunctors (loop : Loop threads)

/-- The callback of a channel; the flag says whether it has more to do. -/
def Handler.run (handler : Handler) (read : ReadResult) (writes : List IoResult)
    (c : TcpConnection) : Except Fault (TcpConnection × Bool) :=
  match handler with
  | .close => c.handleClose.map (·, false)
  | .error => c.handleError.map (·, false)
  | .read => c.readOnce read
  | .write => (c.handleWrite writes).map (·, false)

namespace TcpServer

variable {threads : Nat}

def create (threads : Nat) (config : ServerConfig) : TcpServer threads where
  name := config.name
  ipPort := config.listenAddr.toIpPort
  writeCompleteCallback := config.writeCompleteCallback
  next := 0
  nextConnId := 1
  connections := fun _ => none
  objects := fun _ => none
  pollers := fun _ => EPollPoller.create
  queues := fun _ => BatchQueue.empty
  handlers := fun _ => []
  trace := []

def emit (s : TcpServer threads) (effect : TableEffect) : TcpServer threads :=
  { s with trace := effect :: s.trace }

/-- Between the handling of channels and outside `doPendingFunctors`. -/
def Idle (s : TcpServer threads) (loop : Loop threads) : Prop :=
  s.handlers loop = [] ∧ (s.queues loop).Between

instance (s : TcpServer threads) (loop : Loop threads) : Decidable (s.Idle loop) :=
  inferInstanceAs (Decidable (s.handlers loop = [] ∧ (s.queues loop).Between))

/-- The table or a functor in a queue's storage holds the connection. -/
def Referenced (s : TcpServer threads) (conn : Nat) (object : ServerConn threads) : Prop :=
  s.connections object.name = some conn ∨
    ∃ loop, ∃ functor ∈ (s.queues loop).content, functor.conn = conn

instance (s : TcpServer threads) (conn : Nat) (object : ServerConn threads) :
    Decidable (s.Referenced conn object) :=
  inferInstanceAs (Decidable (s.connections object.name = some conn ∨
    ∃ loop, ∃ functor ∈ (s.queues loop).content, functor.conn = conn))

/-- A connection that exists owns the descriptor. -/
def isOpen (s : TcpServer threads) (fd : Nat) : Bool :=
  (List.range s.nextConnId).any fun conn =>
    match s.objects conn with
    | some object => object.conn.channel.fd = fd ∧ s.Referenced conn object
    | none => false

def queueInLoop (s : TcpServer threads) (loop : Loop threads) (functor : ServerFunctor) :
    TcpServer threads :=
  { s with queues := Function.update s.queues loop ((s.queues loop).push [functor]) }

/-- Call a function of the connection object, which works on its loop's poller. -/
def onConnection {β : Type} (s : TcpServer threads) (conn : Nat)
    (body : TcpConnection → Except Fault (TcpConnection × β)) :
    Except Fault (TcpServer threads × β) :=
  match s.objects conn with
  | none => .error .nullPointer
  | some object => do
      let (c, result) ← body { object.conn with poller := s.pollers object.loop }
      return ({ s with
        pollers := Function.update s.pollers object.loop c.poller
        objects := Function.update s.objects conn (some { object with conn := c }) }, result)

def removeConnectionInLoop (s : TcpServer threads) (conn : Nat) :
    Except Fault (TcpServer threads) :=
  match s.objects conn with
  | none => .error .nullPointer
  | some object =>
      let s := s.emit (.erase conn (s.connections object.name))
      let s := { s with connections := Function.update s.connections object.name none }
      .ok (s.queueInLoop object.loop (.connectDestroyed conn))

def call (s : TcpServer threads) : ServerFunctor → Except Fault (TcpServer threads)
  | .connectEstablished conn => do
      let (s, _) ← s.onConnection conn fun c => c.connectEstablished.map (·, ())
      return s
  | .connectDestroyed conn => do
      let (s, _) ← s.onConnection conn fun c => c.connectDestroyed.map (·, ())
      return s
  | .removeConnectionInLoop conn => s.removeConnectionInLoop conn

/-- `runInLoop` of `loop`, called in the thread of `caller`. -/
def runInLoop (s : TcpServer threads) (caller loop : Loop threads) (functor : ServerFunctor) :
    Except Fault (TcpServer threads) :=
  if caller = loop then s.call functor else .ok (s.queueInLoop loop functor)

/-- `getNextLoop`, and what `next_` is afterwards. -/
def getNextLoop (s : TcpServer threads) : Loop threads × Nat :=
  if inside : s.next < threads then
    (⟨s.next + 1, by omega⟩, if threads ≤ s.next + 1 then 0 else s.next + 1)
  else (baseLoop threads, s.next)

/-- `++nextConnId_` of the largest `int` overflows. -/
def newConnection (s : TcpServer threads) (sockfd : Nat) : Except Fault (TcpServer threads) :=
  let (ioLoop, next) := s.getNextLoop
  if s.nextConnId < intMax then
    let conn := s.nextConnId
    let name := connName s.name s.ipPort conn
    let object : ServerConn threads :=
      ⟨name, ioLoop, TcpConnection.create conn sockfd (64 * 1024 * 1024)
        s.writeCompleteCallback false⟩
    let s := s.emit (.insert conn (s.connections name))
    let s := { s with
      next
      nextConnId := s.nextConnId + 1
      objects := Function.update s.objects conn (some object)
      connections := Function.update s.connections name (some conn) }
    s.runInLoop (baseLoop threads) ioLoop (.connectEstablished conn)
  else .error .outOfBounds

/-- The close callback, called in the loop of the connection. -/
def removeConnection (s : TcpServer threads) (conn : Nat) (caller : Loop threads) :
    Except Fault (TcpServer threads) :=
  s.runInLoop caller (baseLoop threads) (.removeConnectionInLoop conn)

/-- How often the connection has called its close callback. -/
def closes (s : TcpServer threads) (conn : Nat) : Nat :=
  match s.objects conn with
  | some object => object.conn.trace.count .closeCallback
  | none => 0

/-- The next callback for the channel at hand. The close callback is the last thing a
callback calls. -/
def runHandler (s : TcpServer threads) (loop : Loop threads) (read : ReadResult)
    (writes : List IoResult) : Except Fault (TcpServer threads) :=
  match s.handlers loop with
  | [] => .error .notEnabled
  | (conn, handler) :: rest => do
      let (after, again) ← s.onConnection conn (handler.run read writes)
      let handlers := if again then (conn, handler) :: rest else rest
      let after := { after with handlers := Function.update s.handlers loop handlers }
      if after.closes conn = s.closes conn then return after
      else after.removeConnection conn loop

def runFunctor (s : TcpServer threads) (loop : Loop threads) : Except Fault (TcpServer threads) :=
  match (s.queues loop).next with
  | none => .error .notEnabled
  | some (functor, queue) =>
      { s with queues := Function.update s.queues loop queue }.call functor

def step (s : TcpServer threads) : ServerEvent threads → Except Fault (TcpServer threads)
  | .accept fd =>
      if s.Idle (baseLoop threads) ∧ s.isOpen fd = false then s.newConnection fd
      else .error .notEnabled
  | .handleEvent loop fd revents =>
      match (s.pollers loop).interest fd with
      | none => .error .notEnabled
      | some (mask, conn) =>
          if s.Idle loop ∧ revents &&& ~~~ (mask ||| EPOLLERR ||| EPOLLHUP) = 0 then
            let handlers := (handlersOf revents).map fun handler => (conn, handler)
            .ok { s with handlers := Function.update s.handlers loop handlers }
          else .error .notEnabled
  | .runHandler loop read writes => s.runHandler loop read writes
  | .retrieve loop len =>
      match s.handlers loop with
      | [] => .error .notEnabled
      | (conn, _) :: _ => do
          let (s, _) ← s.onConnection conn fun c => .ok (c.retrieveInput len, ())
          return s
  | .swapFunctors loop =>
      if s.Idle loop then
        .ok { s with queues := Function.update s.queues loop (s.queues loop).swap }
      else .error .notEnabled
  | .runFunctor loop => if s.handlers loop = [] then s.runFunctor loop else .error .notEnabled
  | .endFunctors loop =>
      if (s.queues loop).batch = [] then
        .ok { s with queues := Function.update s.queues loop (s.queues loop).finish }
      else .error .notEnabled

/-- No functor waits in any queue. -/
def Quiet (s : TcpServer threads) : Prop := ∀ loop, (s.queues loop).waiting = []

instance (s : TcpServer threads) : Decidable s.Quiet :=
  inferInstanceAs (Decidable (∀ loop, (s.queues loop).waiting = []))

end TcpServer

end KamaWebserver
