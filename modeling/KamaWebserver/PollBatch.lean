import KamaWebserver.LoopConfinement

set_option autoImplicit false

namespace KamaWebserver

open Outcome Transition

/-- A channel in `activeChannels_`, the connection it is part of, and its `revents_`. -/
structure ActiveChannel where
  fd : Nat
  conn : Nat
  revents : EventMask
  deriving DecidableEq

/-- Where `loop()` is: at `poll`, in the loop over `activeChannels_` or in `doPendingFunctors`. -/
inductive LoopTurn
  | polling
  | handling
  | pending
  deriving DecidableEq

/-- The server with its loops as they poll. The channel handled at the moment is no longer in
`active`. -/
structure PolledServer (threads : Nat) where
  server : TcpServer threads
  turn : Loop threads → LoopTurn
  active : Loop threads → List ActiveChannel

/-- What a loop does. `accept` is the turn of `acceptChannel_`, which with the channels of the
wakeup and timer descriptors is left out of the lists. -/
inductive PolledEvent (threads : Nat)
  | poll (loop : Loop threads) (reported : List (Nat × EventMask))
  | accept (fd : Nat)
  | handleChannel (loop : Loop threads)
  | runHandler (loop : Loop threads) (read : ReadResult) (writes : List IoResult)
  | retrieve (loop : Loop threads) (len : Nat)
  | endChannels (loop : Loop threads)
  | runFunctor (loop : Loop threads)
  | endFunctors (loop : Loop threads)

namespace EPollPoller

/-- epoll may report these events for the descriptor. -/
def Watches (p : EPollPoller) (fd : Nat) (revents : EventMask) : Prop :=
  match p.interest fd with
  | none => False
  | some (mask, _) => revents &&& ~~~ (mask ||| EPOLLERR ||| EPOLLHUP) = 0

instance (p : EPollPoller) (fd : Nat) (revents : EventMask) : Decidable (p.Watches fd revents) :=
  match found : p.interest fd with
  | none => isFalse (by simp [Watches, found])
  | some (mask, _) =>
      decidable_of_iff (revents &&& ~~~ (mask ||| EPOLLERR ||| EPOLLHUP) = 0)
        (by simp [Watches, found])

/-- A result of `epoll_wait`. How many events `revents_` has room for is left open: the wakeup and
timer descriptors and `acceptChannel_` take some of it too. -/
def Reports (p : EPollPoller) (reported : List (Nat × EventMask)) : Prop :=
  (reported.map Prod.fst).Nodup ∧ ∀ event ∈ reported, p.Watches event.1 event.2

instance (p : EPollPoller) (reported : List (Nat × EventMask)) : Decidable (p.Reports reported) :=
  inferInstanceAs (Decidable (_ ∧ _))

/-- The pointers epoll holds for the reported descriptors. -/
def fillActiveChannels (p : EPollPoller) (reported : List (Nat × EventMask)) : List ActiveChannel :=
  reported.filterMap fun event =>
    (p.interest event.1).map fun watched => ⟨event.1, watched.2, event.2⟩

end EPollPoller

namespace PolledServer

variable {threads : Nat}

def create (threads : Nat) (config : ServerConfig) : PolledServer threads where
  server := .create threads config
  turn := fun _ => .polling
  active := fun _ => []

/-- A step of the server. -/
def onServer (s : PolledServer threads) (event : ServerEvent threads) :
    Except Fault (PolledServer threads) :=
  (s.server.step event).map fun server => { s with server }

def setTurn (s : PolledServer threads) (loop : Loop threads) (turn : LoopTurn) :
    PolledServer threads :=
  { s with turn := Function.update s.turn loop turn }

def poll (s : PolledServer threads) (loop : Loop threads) (reported : List (Nat × EventMask)) :
    PolledServer threads :=
  { s with
    turn := Function.update s.turn loop .handling
    active := Function.update s.active loop
      ((s.server.pollers loop).fillActiveChannels reported) }

/-- `handleEvent` of the next channel. The channel is gone with its connection. -/
def handleChannel (s : PolledServer threads) (loop : Loop threads) :
    Except Fault (PolledServer threads) :=
  match s.active loop with
  | [] => .error .notEnabled
  | channel :: rest =>
      match s.server.objects channel.conn with
      | none => .error .nullPointer
      | some object =>
          if s.server.Referenced channel.conn object then
            let handlers := (handlersOf channel.revents).map fun handler => (channel.conn, handler)
            .ok { s with
              server := { s.server with
                handlers := Function.update s.server.handlers loop handlers }
              active := Function.update s.active loop rest }
          else .error .nullPointer

def step (s : PolledServer threads) : PolledEvent threads → Except Fault (PolledServer threads)
  | .poll loop reported =>
      if s.turn loop = .polling ∧ (s.server.pollers loop).Reports reported then
        .ok (s.poll loop reported)
      else .error .notEnabled
  | .accept fd =>
      if s.turn (baseLoop threads) = .handling then s.onServer (.accept fd) else .error .notEnabled
  | .handleChannel loop =>
      if s.turn loop = .handling ∧ s.server.handlers loop = [] then s.handleChannel loop
      else .error .notEnabled
  | .runHandler loop read writes => s.onServer (.runHandler loop read writes)
  | .retrieve loop len => s.onServer (.retrieve loop len)
  | .endChannels loop =>
      if s.turn loop = .handling ∧ s.active loop = [] then
        (s.onServer (.swapFunctors loop)).map (·.setTurn loop .pending)
      else .error .notEnabled
  | .runFunctor loop =>
      if s.turn loop = .pending then s.onServer (.runFunctor loop) else .error .notEnabled
  | .endFunctors loop =>
      if s.turn loop = .pending then
        (s.onServer (.endFunctors loop)).map (·.setTurn loop .polling)
      else .error .notEnabled

/-- How many connections a step numbers. -/
def accepts : PolledEvent threads → Nat
  | .accept _ => 1
  | _ => 0

end PolledServer

end KamaWebserver
