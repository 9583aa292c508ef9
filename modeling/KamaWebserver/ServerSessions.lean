import KamaWebserver.LoneConnection
import KamaWebserver.LoopConfinement

set_option autoImplicit false

namespace KamaWebserver

open Outcome Transition

/-- What a server shows of one connection: the connection with what its loop's poller and queue
hold for it, the callbacks still to run for it, whether the table holds it, and how often it is
still to be established and to be removed. -/
structure Sight where
  conn : TcpConnection
  handlers : List Handler
  tabled : Bool
  establishing : Nat
  removing : Nat

/-- The session has done to its connection what is shown. -/
structure Session.Shows (session : Session) (v : Sight) : Prop where
  conn : v.conn.Alike session.conn
  handlers : session.handlers = v.handlers
  calls : session.calls = []
  tabled : session.tabled = v.tabled
  established : v.establishing = 0
  removed : session.removed + v.removing = v.conn.closeCallbacks

/-- `connectEstablished` has still to run on what the constructor made, or what has happened since
is a run of a session. -/
def Sight.Explained (config : Session.Config) (v : Sight) : Prop :=
  (v.establishing = 1 ∧ v.conn = config.created) ∨
    ∃ session, Reachable Session.step (.start config) session ∧ session.Shows v

/-- The event of a session that runs the callback. -/
def Handler.event (handler : Handler) (read : ReadResult) (writes : List IoResult) : SessionEvent :=
  match handler with
  | .close => .handleClose
  | .error => .handleError
  | .read => .handleRead read
  | .write => .handleWrite writes

theorem Session.step_handler {session : Session} {handler : Handler} {rest : List Handler}
    {read : ReadResult} {writes : List IoResult} {conn : TcpConnection} {again : Bool}
    (front : session.handlers = handler :: rest)
    (ran : handler.run read writes session.conn = .ok (conn, again)) :
    session.step (handler.event read writes) =
      .ok { session with conn, handlers := if again then session.handlers else rest } := by
  cases handler <;>
    simp only [Handler.run] at ran <;>
    simp only [Handler.event, Session.step, Session.runHandler, front, if_pos, ran] <;> rfl

namespace TcpServer

variable {threads : Nat}

/-- The functors of the connection. -/
def functorsOf (conn : Nat) (functors : List ServerFunctor) : List Functor :=
  functors.filterMap fun functor =>
    if functor = .connectDestroyed conn then some .connectDestroyed else none

/-- The callbacks for the connection. -/
def callbacksOf (conn : Nat) (handlers : List (Nat × Handler)) : List Handler :=
  handlers.filterMap fun entry => if entry.1 = conn then some entry.2 else none

/-- The view of a connection. `running` is a functor that has left its queue and is still to be
run. -/
def sight (s : TcpServer threads) (running : Option ServerFunctor) (conn : Nat)
    (object : ServerConn threads) : Sight where
  conn := TcpConnection.alone { object.conn with poller := s.pollers object.loop }
    (functorsOf conn (running.toList ++ (s.queues object.loop).batch))
    (functorsOf conn (s.queues object.loop).pending)
  handlers := callbacksOf conn (s.handlers object.loop)
  tabled := s.connections object.name = some conn
  establishing := s.outstanding running object (.connectEstablished conn)
  removing := s.outstanding running object (.removeConnectionInLoop conn)

/-- The session of a connection. -/
def config (s : TcpServer threads) (conn : Nat) (object : ServerConn threads) : Session.Config :=
  ⟨conn, object.conn.channel.fd, 64 * 1024 * 1024, s.writeCompleteCallback, false⟩

/-- Each connection that something holds has gone through a session. -/
def Depicts (running : Option ServerFunctor) (s : TcpServer threads) : Prop :=
  ∀ conn object, s.objects conn = some object → s.Held running conn object →
    (s.sight running conn object).Explained (s.config conn object)

variable {s after : TcpServer threads} {running later : Option ServerFunctor} {conn : Nat}
  {object : ServerConn threads}

theorem functorsOf_append (first second : List ServerFunctor) :
    functorsOf conn (first ++ second) = functorsOf conn first ++ functorsOf conn second :=
  List.filterMap_append

theorem functorsOf_cons_self (functors : List ServerFunctor) :
    functorsOf conn (.connectDestroyed conn :: functors) =
      .connectDestroyed :: functorsOf conn functors := by
  simp [functorsOf]

theorem functorsOf_cons_of_ne {functor : ServerFunctor} (differ : functor ≠ .connectDestroyed conn)
    (functors : List ServerFunctor) :
    functorsOf conn (functor :: functors) = functorsOf conn functors := by
  simp [functorsOf, differ]

/-- A connection sees what concerns it only. -/
theorem sight_congr (poller : (after.pollers object.loop).only object.conn.channel.fd =
      (s.pollers object.loop).only object.conn.channel.fd)
    (batch : functorsOf conn (later.toList ++ (after.queues object.loop).batch) =
      functorsOf conn (running.toList ++ (s.queues object.loop).batch))
    (pending : functorsOf conn (after.queues object.loop).pending =
      functorsOf conn (s.queues object.loop).pending)
    (handlers : callbacksOf conn (after.handlers object.loop) =
      callbacksOf conn (s.handlers object.loop))
    (tabled : after.connections object.name = some conn ↔ s.connections object.name = some conn)
    (counts : ∀ functor, functor.conn = conn →
      after.outstanding later object functor = s.outstanding running object functor) :
    after.sight later conn object = s.sight running conn object := by
  simp only [sight, TcpConnection.alone, poller, batch, pending, handlers, tabled,
    counts (.connectEstablished conn) rfl, counts (.removeConnectionInLoop conn) rfl]

/-- A functor in hand that is not this connection's `connectDestroyed` is not among its own. -/
theorem functorsOf_inHand (running : Option ServerFunctor)
    (other : ∀ functor, running = some functor → functor ≠ .connectDestroyed conn)
    (batch : List ServerFunctor) :
    functorsOf conn (running.toList ++ batch) = functorsOf conn batch := by
  cases running with
  | none => rfl
  | some functor => exact functorsOf_cons_of_ne (other functor rfl) batch

/-- A functor that comes to run is in hand and still to be run. -/
theorem next_outstanding (consistent : s.Consistent none) {loop : Loop threads}
    {functor : ServerFunctor} {queue : BatchQueue ServerFunctor}
    (taken : (s.queues loop).next = some (functor, queue)) (there : s.objects conn = some object)
    (inside : ServerFunctor) (owner : inside.conn = conn) :
    outstanding { s with queues := Function.update s.queues loop queue } (some functor) object
      inside = s.outstanding none object inside := by
  have first : (s.queues loop).waiting = functor :: queue.waiting := BatchQueue.next_waiting taken
  obtain ⟨held, found, here⟩ := consistent.placed loop functor
    (BatchQueue.mem_content_of_waiting (first ▸ List.mem_cons_self))
  by_cases same : functor = inside
  · subst same
    obtain rfl : held = object :=
      Option.some.inj (found.symm.trans ((congrArg s.objects owner).trans there))
    subst here
    simp [outstanding, first]
  · rw [outstanding_of_ne same]
    by_cases loopSame : place object inside = loop
    · simp [outstanding, loopSame, first, same]
    · simp [outstanding, Function.update_of_ne loopSame]

theorem next_sight (consistent : s.Consistent none) {loop : Loop threads}
    {functor : ServerFunctor} {queue : BatchQueue ServerFunctor}
    (taken : (s.queues loop).next = some (functor, queue)) (there : s.objects conn = some object) :
    sight { s with queues := Function.update s.queues loop queue } (some functor) conn object =
      s.sight none conn object := by
  obtain ⟨front, rest⟩ := BatchQueue.next_eq_some taken
  have pending : queue.pending = (s.queues loop).pending := by rw [rest]
  obtain ⟨held, found, here⟩ := consistent.placed loop functor
    (BatchQueue.mem_content_of_waiting (BatchQueue.next_waiting taken ▸ List.mem_cons_self))
  by_cases same : object.loop = loop
  · subst same
    refine sight_congr rfl ?_ ?_ rfl Iff.rfl (next_outstanding consistent taken there)
    · simp only [Function.update_self, front, Option.toList_some, Option.toList_none,
        List.singleton_append, List.nil_append]
    · simp only [Function.update_self, pending]
  · have elsewhere : ∀ inHand, some functor = some inHand →
        inHand ≠ .connectDestroyed conn := by
      intro inHand own destroys
      cases own
      subst destroys
      cases there.symm.trans found
      exact same here.symm
    refine sight_congr rfl ?_ ?_ rfl Iff.rfl (next_outstanding consistent taken there)
    · rw [functorsOf_inHand _ elsewhere]
      simp only [Function.update_of_ne same]
      rfl
    · simp only [Function.update_of_ne same]

/-- Of a step on one connection the others see nothing. -/
theorem put_sight {c : TcpConnection} (consistent : s.Consistent running)
    (there : s.objects conn = some object) (held : s.Held running conn object)
    (serves : TcpConnection.Serves { object.conn with poller := s.pollers object.loop } c)
    (before : ∀ functor, running = some functor → functor.conn = conn)
    (afterwards : ∀ functor, later = some functor → functor.conn = conn) {other : Nat}
    {entry : ServerConn threads} (differ : other ≠ conn) (found : s.objects other = some entry)
    (heldOther : s.Held running other entry) :
    (s.put conn object c).sight later other entry = s.sight running other entry := by
  have absent : ∀ hand : Option ServerFunctor,
      (∀ functor, hand = some functor → functor.conn = conn) →
        ∀ functor, hand = some functor → functor ≠ .connectDestroyed other := by
    intro hand own functor inHand same
    subst same
    exact differ (own _ inHand)
  refine sight_congr ?_ ?_ rfl rfl Iff.rfl (outstanding_congr differ before afterwards)
  · have fd : entry.conn.channel.fd ≠ object.conn.channel.fd := fun same =>
      differ (consistent.apart other conn entry object found there heldOther held same)
    by_cases same : entry.loop = object.loop
    · simp only [put, same, Function.update_self]
      exact EPollPoller.only_congr (serves.onlyAt.channels _ fd) (serves.onlyAt.interest _ fd)
    · simp only [put, Function.update_of_ne same]
  · rw [functorsOf_inHand _ (absent later afterwards), functorsOf_inHand _ (absent running before)]
    rfl

theorem queueInLoop_batch (loop other : Loop threads) (functor : ServerFunctor) :
    ((s.queueInLoop loop functor).queues other).batch = (s.queues other).batch := by
  by_cases same : other = loop
  · subst same
    simp only [queueInLoop, Function.update_self]
    rfl
  · simp only [queueInLoop, Function.update_of_ne same]

theorem queueInLoop_functors_of_ne (loop other : Loop threads) {functor : ServerFunctor}
    (differ : functor ≠ .connectDestroyed conn) :
    functorsOf conn ((s.queueInLoop loop functor).queues other).pending =
      functorsOf conn (s.queues other).pending := by
  by_cases same : other = loop
  · subst same
    simp only [queueInLoop, Function.update_self, BatchQueue.push, functorsOf_append,
      functorsOf_cons_of_ne differ]
    exact List.append_nil _
  · simp only [queueInLoop, Function.update_of_ne same]

/-- A functor other than `connectDestroyed` is in hand or in its queue. -/
theorem queueInLoop_sight {functor : ServerFunctor} {target : ServerConn threads}
    (named : s.objects functor.conn = some target)
    (other : ∀ conn, functor ≠ .connectDestroyed conn) (there : s.objects conn = some object) :
    (s.queueInLoop (place target functor) functor).sight none conn object =
      s.sight (some functor) conn object := by
  refine sight_congr rfl ?_ (queueInLoop_functors_of_ne _ _ (other conn)) rfl Iff.rfl
    (fun inside owner => ?_)
  · rw [queueInLoop_batch, functorsOf_inHand (some functor)
      (fun inHand same => Option.some.inj same ▸ other conn)]
    rfl
  · by_cases same : functor.conn = conn
    · subst same
      cases there.symm.trans named
      exact outstanding_queueInLoop functor inside owner.symm
    · have differ : functor ≠ inside := fun equal => same (equal ▸ owner)
      rw [outstanding_of_ne differ, outstanding, outstanding, queueInLoop_waiting_of_ne _ differ]

/-- What holds the connection afterwards held it before. -/
theorem Held.earlier (held : after.Held later conn object)
    (tabled : after.connections object.name = some conn → s.connections object.name = some conn)
    (stored : ∀ loop, ∀ functor ∈ (after.queues loop).content, functor.conn = conn →
      functor ∈ (s.queues loop).content ∨ running = some functor)
    (inHand : ∀ functor, later = some functor → functor.conn = conn → s.Held running conn object) :
    s.Held running conn object := by
  rcases held with (filed | ⟨loop, functor, inside, owner⟩) | ⟨functor, same, owner⟩
  · exact .inl (.inl (tabled filed))
  · rcases stored loop functor inside owner with earlier | same
    · exact .inl (.inr ⟨loop, functor, earlier, owner⟩)
    · exact .inr ⟨functor, same, owner⟩
  · exact inHand functor same owner

/-- The connections are those there were, and see the same. -/
theorem Depicts.keep (depicts : s.Depicts running) (objects : after.objects = s.objects)
    (writeComplete : after.writeCompleteCallback = s.writeCompleteCallback)
    (held : ∀ conn object, s.objects conn = some object → after.Held later conn object →
      s.Held running conn object)
    (sights : ∀ conn object, s.objects conn = some object →
      after.sight later conn object = s.sight running conn object) : after.Depicts later := by
  intro conn object there heldAfter
  rw [objects] at there
  have explained := depicts conn object there (held conn object there heldAfter)
  rw [sights conn object there, config, writeComplete]
  exact explained

theorem next_depicts (consistent : s.Consistent none) (depicts : s.Depicts none)
    {loop : Loop threads} {functor : ServerFunctor} {queue : BatchQueue ServerFunctor}
    (taken : (s.queues loop).next = some (functor, queue)) :
    Depicts (some functor) { s with queues := Function.update s.queues loop queue } := by
  refine depicts.keep rfl rfl (fun conn object there held => ?_)
    (fun conn object there => next_sight consistent taken there)
  refine held.earlier (fun filed => filed) (fun other inside stored _ => .inl ?_) ?_
  · dsimp only at stored
    by_cases same : other = loop
    · subst same
      rwa [Function.update_self, BatchQueue.next_content taken] at stored
    · rwa [Function.update_of_ne same] at stored
  · intro inHand same owner
    cases same
    exact .inl (.inr ⟨loop, functor, BatchQueue.mem_content_of_waiting
      (BatchQueue.next_waiting taken ▸ List.mem_cons_self), owner⟩)

theorem queueInLoop_depicts {functor : ServerFunctor} {target : ServerConn threads}
    (depicts : s.Depicts (some functor)) (named : s.objects functor.conn = some target)
    (other : ∀ conn, functor ≠ .connectDestroyed conn) :
    (s.queueInLoop (place target functor) functor).Depicts none := by
  refine depicts.keep rfl rfl (fun conn object there held => ?_)
    (fun conn object there => queueInLoop_sight named other there)
  refine held.earlier (fun filed => filed) (fun loop inside stored _ => ?_) ?_
  · rcases queueInLoop_content _ _ stored with older | ⟨-, same⟩
    · exact .inl older
    · exact .inr (congrArg some same.symm)
  · intro inHand none
    cases none

section Put

variable {c : TcpConnection} (consistent : s.Consistent running) (depicts : s.Depicts running)
  (there : s.objects conn = some object) (held : s.Held running conn object)
  (serves : TcpConnection.Serves { object.conn with poller := s.pollers object.loop } c)
include consistent depicts there held serves

/-- A function of one connection has run, and `handlers` are left to its loop. -/
theorem handled_depicts (before : ∀ functor, running = some functor → functor.conn = conn)
    (afterwards : ∀ functor, later = some functor → functor.conn = conn)
    {handlers : List (Nat × Handler)}
    (elsewhere : ∀ other, other ≠ conn →
      callbacksOf other handlers = callbacksOf other (s.handlers object.loop))
    (own : Sight.Explained (s.config conn object)
      { s.sight later conn object with
        conn := c.alone (functorsOf conn (later.toList ++ (s.queues object.loop).batch))
          (functorsOf conn (s.queues object.loop).pending)
        handlers := callbacksOf conn handlers }) :
    Depicts later { s.put conn object c with
      handlers := Function.update s.handlers object.loop handlers } := by
  intro other entry found heldAfter
  rcases put_cases found with ⟨rfl, rfl⟩ | ⟨differ, old⟩
  · have same : (s.put other object c).config other { object with conn := c } =
        s.config other object := congrArg
      (fun fd => Session.Config.mk other fd (64 * 1024 * 1024) s.writeCompleteCallback false)
      serves.fd
    simp only [sight, put, Function.update_self]
    exact same ▸ own
  · have heldOther : s.Held running other entry := held_congr differ afterwards heldAfter
    have explained := depicts other entry old heldOther
    have left : callbacksOf other (Function.update s.handlers object.loop handlers entry.loop) =
        callbacksOf other (s.handlers entry.loop) := by
      by_cases same : entry.loop = object.loop
      · rw [same, Function.update_self]
        exact elsewhere other differ
      · rw [Function.update_of_ne same]
    rw [← put_sight consistent there held serves before afterwards differ old heldOther]
      at explained
    have seen : sight { s.put conn object c with
        handlers := Function.update s.handlers object.loop handlers } later other entry =
        (s.put conn object c).sight later other entry :=
      sight_congr rfl rfl rfl left Iff.rfl (fun _ _ => rfl)
    rw [seen]
    exact explained

theorem put_depicts (before : ∀ functor, running = some functor → functor.conn = conn)
    (afterwards : ∀ functor, later = some functor → functor.conn = conn)
    (own : Sight.Explained (s.config conn object)
      { s.sight later conn object with
        conn := c.alone (functorsOf conn (later.toList ++ (s.queues object.loop).batch))
          (functorsOf conn (s.queues object.loop).pending) }) :
    (s.put conn object c).Depicts later := by
  have kept := handled_depicts consistent depicts there held serves before afterwards
    (fun _ _ => rfl) own
  rw [Function.update_eq_self] at kept
  exact kept

end Put

/-- A function of the connection has run. -/
theorem onConnection_map_ok {body : TcpConnection → Except Fault TcpConnection}
    {result : TcpServer threads × Unit} (there : s.objects conn = some object)
    (ran : s.onConnection conn (fun c => (body c).map (·, ())) = .ok result) :
    ∃ c, body { object.conn with poller := s.pollers object.loop } = .ok c ∧
      result.1 = s.put conn object c := by
  obtain ⟨c, called, same⟩ := onConnection_ok there ran
  obtain ⟨value, returned, paired⟩ := (map_ok_iff _ _ _).mp called
  cases paired
  exact ⟨c, returned, same⟩

theorem sight_mirrors {other : TcpConnection}
    (alike : (s.sight running conn object).conn.Alike other) :
    TcpConnection.Mirrors (functorsOf conn (running.toList ++ (s.queues object.loop).batch))
      (functorsOf conn (s.queues object.loop).pending)
      { object.conn with poller := s.pollers object.loop } other :=
  alike

/-- No callback waits for a channel that no poller knows. -/
theorem Consistent.no_handlers (consistent : s.Consistent running)
    (there : s.objects conn = some object) (index : object.conn.channel.index = .kNew) :
    callbacksOf conn (s.handlers object.loop) = [] := by
  rw [callbacksOf, List.filterMap_eq_nil_iff]
  intro entry inside
  obtain ⟨found, here, -, registered⟩ := consistent.handled object.loop entry inside
  rw [if_neg]
  intro same
  rw [same] at here
  cases there.symm.trans here
  exact registered index

/-- The session starts. -/
theorem establish_depicts (consistent : s.Consistent (some (.connectEstablished conn)))
    (depicts : s.Depicts (some (.connectEstablished conn)))
    (ran : s.call (.connectEstablished conn) = .ok after) : after.Depicts none := by
  obtain ⟨object, there⟩ : ∃ object, s.objects conn = some object := consistent.called _ rfl
  have held : s.Held (some (.connectEstablished conn)) conn object := .inr ⟨_, rfl, rfl⟩
  have counted := outstanding_self s object (.connectEstablished conn)
  obtain ⟨result, called, returned⟩ := (bind_ok_iff _ _ _).mp ran
  cases returned
  obtain ⟨c, established, same⟩ := onConnection_map_ok there called
  rw [same]
  cases consistent.stage conn object there with
  | up _ _ _ establishing _ _ => omega
  | down _ _ establishing _ _ => omega
  | fresh index opened tabled establishing removing destroying =>
      obtain ⟨c', ran', serves, added, callbacks⟩ :=
        TcpConnection.connectEstablished_serves (consistent.ready there held) index
      cases established.symm.trans ran'
      rcases depicts conn object there held with ⟨-, created⟩ | ⟨session, -, shows⟩
      · have started := (sight_mirrors (.of_eq created)).connectEstablished
        rw [established, Session.created_connectEstablished] at started
        rw [functorsOf_inHand _ (fun _ same => by cases same; simp)] at started
        rw [outstanding_of_ne (by simp)] at removing
        refine put_depicts consistent depicts there held serves (by simp [ServerFunctor.conn])
          (by simp) (.inr ⟨.start (s.config conn object), ⟨[], rfl⟩, started, ?_, rfl, ?_, ?_, ?_⟩)
        · exact (consistent.no_handlers there index).symm
        · exact (decide_eq_true tabled).symm
        · show s.outstanding none object (.connectEstablished conn) = 0
          omega
        · show 0 + s.outstanding none object (.removeConnectionInLoop conn) = c.closeCallbacks
          have opened : c.closeCallbacks = 0 := callbacks.trans opened
          omega
      · have none : s.outstanding (some (.connectEstablished conn)) object
            (.connectEstablished conn) = 0 := shows.established
        omega

/-- The session takes the last step of its connection. -/
theorem destroy_depicts (consistent : s.Consistent (some (.connectDestroyed conn)))
    (depicts : s.Depicts (some (.connectDestroyed conn)))
    (ran : s.call (.connectDestroyed conn) = .ok after) : after.Depicts none := by
  obtain ⟨object, there⟩ : ∃ object, s.objects conn = some object := consistent.called _ rfl
  have held : s.Held (some (.connectDestroyed conn)) conn object := .inr ⟨_, rfl, rfl⟩
  have counted := outstanding_self s object (.connectDestroyed conn)
  obtain ⟨result, called, returned⟩ := (bind_ok_iff _ _ _).mp ran
  cases returned
  obtain ⟨c, destroyed, same⟩ := onConnection_map_ok there called
  rw [same]
  cases consistent.stage conn object there with
  | fresh _ _ _ _ _ destroying => omega
  | up _ _ _ _ _ destroying => omega
  | down state closed establishing removing destroying =>
      obtain ⟨c', ran', serves, down, new, callbacks⟩ :=
        TcpConnection.connectDestroyed_serves (consistent.ready there held) state
      cases destroyed.symm.trans ran'
      rcases depicts conn object there held with ⟨established, -⟩ | ⟨session, reached, shows⟩
      · have one : s.outstanding (some (.connectDestroyed conn)) object
            (.connectEstablished conn) = 1 := established
        omega
      · have mirrors := sight_mirrors shows.conn
        have front : session.conn.functors =
            .connectDestroyed :: functorsOf conn (s.queues object.loop).batch :=
          mirrors.functors.trans (functorsOf_cons_self _)
        have related := (mirrors.setBatch (functorsOf conn
          (s.queues object.loop).batch)).connectDestroyed
        rw [destroyed] at related
        obtain ⟨gone, ended, alike⟩ := related.of_ok
        have taken : session.step (.runFunctor (.count 0)) = .ok { session with
            conn := gone, destroyed := session.destroyed || decide True } := by
          simp only [Session.step, Session.runFunctor, front, TcpConnection.runFunctor, ended]
          rfl
        refine put_depicts consistent depicts there held serves (by simp [ServerFunctor.conn])
          (by simp) (.inr ⟨_, reached.snoc taken, alike, shows.handlers, shows.calls, shows.tabled,
            shows.established, ?_⟩)
        have removed : session.removed + s.outstanding (some (.connectDestroyed conn)) object
            (.removeConnectionInLoop conn) = object.conn.closeCallbacks := shows.removed
        rw [outstanding_of_ne (by simp)] at removed
        exact removed.trans callbacks.symm

/-- The other connections see nothing. -/
theorem Depicts.except (depicts : s.Depicts running) (objects : after.objects = s.objects)
    (writeComplete : after.writeCompleteCallback = s.writeCompleteCallback)
    (there : s.objects conn = some object)
    (others : ∀ other entry, other ≠ conn → s.objects other = some entry →
      after.Held later other entry → s.Held running other entry ∧
        after.sight later other entry = s.sight running other entry)
    (own : (after.sight later conn object).Explained (s.config conn object)) :
    after.Depicts later := by
  intro other entry found heldAfter
  rw [objects] at found
  rw [config, writeComplete]
  by_cases same : other = conn
  · subst same
    cases there.symm.trans found
    exact own
  · obtain ⟨heldBefore, seen⟩ := others other entry same found heldAfter
    have explained := depicts other entry found heldBefore
    rw [seen]
    exact explained

/-- The removal of one connection is no concern of another. -/
theorem erased_sight (consistent : s.Consistent (some (.removeConnectionInLoop conn)))
    (there : s.objects conn = some object) {other : Nat} {entry : ServerConn threads}
    (differ : other ≠ conn) :
    ((s.erased conn object).queueInLoop object.loop (.connectDestroyed conn)).sight none other
      entry = s.sight (some (.removeConnectionInLoop conn)) other entry := by
  have apart : ∀ functor : ServerFunctor, functor.conn = conn →
      ∀ inside : ServerFunctor, inside.conn = other → functor ≠ inside :=
    fun functor mine inside owner equal => differ (owner.symm.trans (equal ▸ mine))
  refine sight_congr rfl ?_ (queueInLoop_functors_of_ne _ _ (apart _ rfl _ rfl)) rfl
    ⟨fun tabled => (erased_connections conn tabled).2, fun tabled => ?_⟩ (fun inside owner => ?_)
  · rw [queueInLoop_batch, functorsOf_inHand (some (.removeConnectionInLoop conn))
      (fun _ same => by cases same; simp)]
    rfl
  · have sameName : entry.name ≠ object.name :=
      fun sameName => differ (consistent.own_entry there (sameName ▸ tabled))
    exact (Function.update_of_ne sameName ..).trans tabled
  · rw [outstanding_of_ne (apart _ rfl inside owner), outstanding, outstanding,
      queueInLoop_waiting_of_ne _ (apart _ rfl inside owner)]
    rfl

/-- The session takes the connection from the table and queues `connectDestroyed`. -/
theorem remove_depicts (consistent : s.Consistent (some (.removeConnectionInLoop conn)))
    (depicts : s.Depicts (some (.removeConnectionInLoop conn)))
    (ran : s.call (.removeConnectionInLoop conn) = .ok after) : after.Depicts none := by
  obtain ⟨object, there⟩ : ∃ object, s.objects conn = some object := consistent.called _ rfl
  have held : s.Held (some (.removeConnectionInLoop conn)) conn object := .inr ⟨_, rfl, rfl⟩
  have counted := outstanding_self s object (.removeConnectionInLoop conn)
  have result : after =
      (s.erased conn object).queueInLoop object.loop (.connectDestroyed conn) := by
    simp only [call, removeConnectionInLoop, there] at ran
    exact (Except.ok.inj ran).symm
  subst result
  refine depicts.except rfl rfl there ?_ ?_
  · intro other entry differ found heldAfter
    refine ⟨heldAfter.earlier (fun tabled => (erased_connections conn tabled).2) ?_ ?_,
      erased_sight consistent there differ⟩
    · intro loop functor stored owner
      rcases queueInLoop_content _ _ stored with older | ⟨-, same⟩
      · exact .inl older
      · subst same
        exact absurd owner.symm differ
    · intro functor none
      cases none
  · cases consistent.stage conn object there with
    | fresh _ _ _ _ removing _ => omega
    | up _ _ _ _ removing _ => omega
    | down state closed establishing _ _ =>
        rcases depicts conn object there held with ⟨established, -⟩ | ⟨session, reached, shows⟩
        · have one : s.outstanding (some (.removeConnectionInLoop conn)) object
              (.connectEstablished conn) = 1 := established
          omega
        · have mirrors := (sight_mirrors shows.conn).queueInLoop .connectDestroyed
          have removed : session.removed + s.outstanding (some (.removeConnectionInLoop conn))
              object (.removeConnectionInLoop conn) = object.conn.closeCallbacks := shows.removed
          have same : session.conn.closeCallbacks = object.conn.closeCallbacks :=
            shows.conn.closeCallbacks
          have behind : session.removed < session.conn.trace.count .closeCallback := by
            rw [TcpConnection.closeCallbacks] at same
            omega
          have taken : session.step .removeConnectionInLoop = .ok { session with
              conn := session.conn.queueInLoop .connectDestroyed
              tabled := false
              removed := session.removed + 1 } := if_pos behind
          refine .inr ⟨_, reached.snoc taken, ?_, shows.handlers, shows.calls, ?_, ?_, ?_⟩
          · have batch : functorsOf conn (((s.erased conn object).queueInLoop object.loop
                (.connectDestroyed conn)).queues object.loop).batch =
                functorsOf conn (.removeConnectionInLoop conn :: (s.queues object.loop).batch) := by
              rw [queueInLoop_batch, functorsOf_cons_of_ne (by simp)]
              rfl
            have pending : functorsOf conn (((s.erased conn object).queueInLoop object.loop
                (.connectDestroyed conn)).queues object.loop).pending =
                functorsOf conn (s.queues object.loop).pending ++ [.connectDestroyed] := by
              simp only [queueInLoop, Function.update_self, BatchQueue.push, functorsOf_append,
                functorsOf_cons_self]
              rfl
            simp only [sight, Option.toList_none, List.nil_append, batch, pending]
            exact mirrors
          · exact (decide_eq_false fun tabled => (erased_connections conn tabled).1 rfl).symm
          · rw [outstanding_of_ne (by simp)] at establishing
            show outstanding _ none object (.connectEstablished conn) = 0
            rw [outstanding, queueInLoop_waiting_of_ne _ (by simp)]
            exact establishing
          · rw [counted] at removed
            show session.removed + 1 + outstanding _ none object (.removeConnectionInLoop conn) =
              object.conn.closeCallbacks
            rw [outstanding, queueInLoop_waiting_of_ne _ (by simp), ← removed, outstanding]
            exact Nat.add_right_comm ..

theorem call_depicts {functor : ServerFunctor} (consistent : s.Consistent (some functor))
    (depicts : s.Depicts (some functor)) (ran : s.call functor = .ok after) :
    after.Depicts none := by
  cases functor with
  | connectEstablished conn => exact establish_depicts consistent depicts ran
  | connectDestroyed conn => exact destroy_depicts consistent depicts ran
  | removeConnectionInLoop conn => exact remove_depicts consistent depicts ran

theorem runInLoop_depicts {functor : ServerFunctor} {target : ServerConn threads}
    (consistent : s.Consistent (some functor)) (depicts : s.Depicts (some functor))
    (named : s.objects functor.conn = some target)
    (other : ∀ conn, functor ≠ .connectDestroyed conn) {caller : Loop threads}
    (ran : s.runInLoop caller (place target functor) functor = .ok after) :
    after.Depicts none := by
  unfold runInLoop at ran
  split at ran
  · exact call_depicts consistent depicts ran
  · cases ran
    exact queueInLoop_depicts depicts named other

theorem callbacksOf_cons_self (handler : Handler) (rest : List (Nat × Handler)) :
    callbacksOf conn ((conn, handler) :: rest) = handler :: callbacksOf conn rest := by
  simp [callbacksOf]

theorem callbacksOf_cons_of_ne {other : Nat} (differ : other ≠ conn) (handler : Handler)
    (rest : List (Nat × Handler)) :
    callbacksOf other ((conn, handler) :: rest) = callbacksOf other rest := by
  simp [callbacksOf, Ne.symm differ]

/-- A connection whose channel a poller knows has its session. -/
theorem Depicts.session (consistent : s.Consistent none) (depicts : s.Depicts none)
    (there : s.objects conn = some object) (index : object.conn.channel.index ≠ .kNew) :
    ∃ session, Reachable Session.step (.start (s.config conn object)) session ∧
      session.Shows (s.sight none conn object) := by
  rcases depicts conn object there (consistent.held_of_index there index) with
    ⟨establishing, -⟩ | found
  · have one : s.outstanding none object (.connectEstablished conn) = 1 := establishing
    cases consistent.stage conn object there with
    | fresh new _ _ _ _ _ => exact absurd new index
    | up _ _ _ none _ _ => omega
    | down _ _ none _ _ => omega
  · exact found

/-- What a callback does: its connection is put back, and is removed if it has closed. -/
theorem runHandler_ok {read : ReadResult} {writes : List IoResult} {handler : Handler}
    {rest : List (Nat × Handler)} (there : s.objects conn = some object)
    (waiting : s.handlers object.loop = (conn, handler) :: rest)
    (taken : s.runHandler object.loop read writes = .ok after) :
    ∃ c again left, handler.run read writes { object.conn with poller := s.pollers object.loop } =
        .ok (c, again) ∧
      left = { s.put conn object c with
        handlers := Function.update s.handlers object.loop
          (if again then (conn, handler) :: rest else rest) } ∧
      (c.closeCallbacks = object.conn.closeCallbacks → after = left) ∧
      (c.closeCallbacks ≠ object.conn.closeCallbacks →
        left.removeConnection conn object.loop = .ok after) := by
  unfold runHandler at taken
  rw [waiting] at taken
  obtain ⟨⟨middle, again⟩, called, last⟩ := (bind_ok_iff _ _ _).mp taken
  obtain ⟨c, ran, same⟩ := onConnection_ok there called
  refine ⟨c, again, _, ran, rfl, ?_⟩
  have before : s.closes conn = object.conn.closeCallbacks := closes_eq there
  have afterwards : ∀ handlers, closes { middle with handlers } conn = c.closeCallbacks :=
    fun _ => closes_eq (same ▸ put_objects_self c)
  simp only [before, afterwards] at last
  rw [← same]
  split at last
  · rename_i quiet
    cases last
    exact ⟨fun _ => rfl, fun closed => absurd quiet closed⟩
  · rename_i closed
    exact ⟨fun quiet => absurd quiet closed, fun _ => last⟩

theorem runHandler_depicts (consistent : s.Consistent none) (depicts : s.Depicts none)
    {loop : Loop threads} {read : ReadResult} {writes : List IoResult}
    (taken : s.runHandler loop read writes = .ok after) : after.Depicts none := by
  cases waiting : s.handlers loop with
  | nil =>
      rw [runHandler, waiting] at taken
      cases taken
  | cons entry rest =>
      obtain ⟨conn, handler⟩ := entry
      obtain ⟨object, there, rfl, index⟩ :=
        consistent.handled loop (conn, handler) (waiting ▸ List.mem_cons_self)
      have held := consistent.held_of_index there index
      obtain ⟨c, again, left, ran, same, quiet, closing⟩ := runHandler_ok there waiting taken
      have outcome := (TcpConnection.run_spec (consistent.ready there held) handler read
        writes).of_ok ran
      obtain ⟨session, reached, shows⟩ := depicts.session consistent there index
      have related := (sight_mirrors shows.conn).run (consistent.known conn object there).writing
        handler read writes
      rw [ran] at related
      obtain ⟨⟨alone, flag⟩, ran', alike, goes⟩ := related.of_ok
      cases goes
      have front : session.handlers = handler :: callbacksOf conn rest := by
        rw [shows.handlers, sight, waiting, callbacksOf_cons_self]
      have moved := reached.snoc (Session.step_handler front ran')
      have explained : ∀ later : Option ServerFunctor,
          (∀ functor, later = some functor → functor = .removeConnectionInLoop conn) →
          session.removed + s.outstanding later object (.removeConnectionInLoop conn) =
            c.closeCallbacks →
          TcpConnection.Serves { object.conn with poller := s.pollers object.loop } c →
          s.outstanding later object (.connectEstablished conn) = 0 → left.Depicts later := by
        intro later inHand removed serves established
        rw [same]
        refine handled_depicts consistent depicts there held serves (by simp)
          (fun functor same => by rw [inHand functor same]; rfl) ?_
          (.inr ⟨_, moved, ?_, ?_, shows.calls, shows.tabled, established, removed⟩)
        · intro other differ
          rw [waiting, callbacksOf_cons_of_ne differ]
          split
          · exact callbacksOf_cons_of_ne differ handler rest
          · rfl
        · rw [functorsOf_inHand _ (fun functor same => by rw [inHand functor same]; simp)]
          exact alike
        · dsimp only
          rw [front]
          split
          · exact (callbacksOf_cons_self handler rest).symm
          · rfl
      have removed : session.removed + s.outstanding none object (.removeConnectionInLoop conn) =
        object.conn.closeCallbacks := shows.removed
      have established : s.outstanding none object (.connectEstablished conn) = 0 :=
        shows.established
      rcases outcome with stays | closed
      · have callbacks : c.closeCallbacks = object.conn.closeCallbacks := stays.closeCallbacks
        rw [quiet callbacks]
        exact explained none (by simp) (removed.trans callbacks.symm) stays.serves established
      · have more : c.closeCallbacks = object.conn.closeCallbacks + 1 := closed.closeCallbacks
        have kept : left.Consistent (some (.removeConnectionInLoop conn)) := by
          have after := put_closes consistent there index closed
          rw [same]
          refine setHandlers_consistent after (fun entry inside => ?_)
          have earlier : entry ∈ (conn, handler) :: rest := by
            cases again with
            | true => exact inside
            | false => exact List.mem_cons_of_mem _ inside
          exact after.handled object.loop entry (waiting ▸ earlier)
        have depicted : left.Depicts (some (.removeConnectionInLoop conn)) := by
          refine explained _ (by simp) ?_ closed.serves ?_
          · rw [outstanding_self]
            omega
          · rw [outstanding_of_ne (by simp)]
            exact established
        have named : left.objects conn = some { object with conn := c } := by
          rw [same]
          exact put_objects_self c
        exact runInLoop_depicts kept depicted named (by simp) (closing (by omega))

theorem callbacksOf_map (conn other : Nat) (handlers : List Handler) :
    callbacksOf other (handlers.map fun handler => (conn, handler)) =
      if conn = other then handlers else [] := by
  rw [callbacksOf, List.filterMap_map]
  split
  · rename_i same
    simp [same]
  · rename_i differ
    simp [differ]

theorem handleEvent_depicts (consistent : s.Consistent none) (depicts : s.Depicts none)
    {loop : Loop threads} {fd : Nat} {revents : EventMask}
    (taken : s.step (.handleEvent loop fd revents) = .ok after) : after.Depicts none := by
  simp only [step] at taken
  cases watched : (s.pollers loop).interest fd with
  | none =>
      rw [watched] at taken
      cases taken
  | some entry =>
      obtain ⟨mask, conn⟩ := entry
      rw [watched] at taken
      obtain ⟨⟨⟨idle, between⟩, within⟩, returned⟩ := guard_ok taken
      cases returned
      obtain ⟨object, there, rfl, rfl, added, -⟩ := consistent.of_interest watched
      have index : object.conn.channel.index ≠ .kNew := by simp [added]
      obtain ⟨session, reached, shows⟩ := depicts.session consistent there index
      refine depicts.except rfl rfl there (fun other entry differ found held => ⟨held, ?_⟩) ?_
      · refine sight_congr rfl rfl rfl ?_ Iff.rfl (fun _ _ => rfl)
        by_cases same : entry.loop = object.loop
        · simp only [same, Function.update_self, callbacksOf_map, if_neg (Ne.symm differ), idle]
          rfl
        · simp only [Function.update_of_ne same]
      · have mirrors := sight_mirrors shows.conn
        have taken : session.step (.handleEvent revents) =
            .ok { session with handlers := KamaWebserver.handlersOf revents } := by
          refine if_pos ⟨?_, ?_, ?_⟩
          · rw [shows.handlers, sight, idle]
            rfl
          · rw [mirrors.functors, between.1]
            rfl
          · rw [Session.reported, mirrors.poller, mirrors.channel]
            simp only [EPollPoller.only, Function.update_self, watched]
            exact decide_eq_true within
        refine .inr ⟨_, reached.snoc taken, shows.conn, ?_, shows.calls, shows.tabled,
          shows.established, shows.removed⟩
        simp only [sight, Function.update_self, callbacksOf_map, if_pos]

theorem retrieve_depicts (consistent : s.Consistent none) (depicts : s.Depicts none)
    {loop : Loop threads} {len : Nat} (taken : s.step (.retrieve loop len) = .ok after) :
    after.Depicts none := by
  simp only [step] at taken
  cases waiting : s.handlers loop with
  | nil =>
      rw [waiting] at taken
      cases taken
  | cons entry rest =>
      obtain ⟨conn, handler⟩ := entry
      rw [waiting] at taken
      obtain ⟨object, there, rfl, index⟩ :=
        consistent.handled loop (conn, handler) (waiting ▸ List.mem_cons_self)
      obtain ⟨result, called, returned⟩ := (bind_ok_iff _ _ _).mp taken
      cases returned
      obtain ⟨c, ran, same⟩ := onConnection_ok there called
      cases ran
      rw [same]
      have held := consistent.held_of_index there index
      have ready := consistent.ready there held
      obtain ⟨session, reached, shows⟩ := depicts.session consistent there index
      have taken : session.step (.retrieve len) =
        .ok { session with conn := session.conn.retrieveInput len } := rfl
      exact put_depicts consistent depicts there held
        ⟨⟨ready.registered, ready.writing, (ready.input.retrieve len).1, ready.output⟩,
          ⟨fun _ _ => rfl, fun _ _ => rfl⟩, rfl, rfl⟩ (by simp) (by simp)
        (.inr ⟨_, reached.snoc taken, (sight_mirrors shows.conn).retrieveInput len,
          shows.handlers, shows.calls, shows.tabled, shows.established, shows.removed⟩)

/-- The queue of a loop is exchanged for one with the same still to run. -/
theorem setQueue_held {loop : Loop threads} {queue : BatchQueue ServerFunctor}
    (stores : ∀ functor ∈ queue.content, functor ∈ (s.queues loop).content)
    (held : Held { s with queues := Function.update s.queues loop queue } none conn object) :
    s.Held none conn object := by
  refine held.earlier (fun tabled => tabled) (fun other functor stored _ => .inl ?_)
    (fun _ none => by cases none)
  dsimp only at stored
  by_cases same : other = loop
  · subst same
    rw [Function.update_self] at stored
    exact stores functor stored
  · rwa [Function.update_of_ne same] at stored

theorem setQueue_outstanding {loop : Loop threads} {queue : BatchQueue ServerFunctor}
    (waits : queue.waiting = (s.queues loop).waiting) (functor : ServerFunctor) :
    outstanding { s with queues := Function.update s.queues loop queue } none object functor =
      s.outstanding none object functor := by
  by_cases same : place object functor = loop
  · simp [outstanding, same, waits]
  · simp [outstanding, Function.update_of_ne same]

theorem swapFunctors_depicts (depicts : s.Depicts none) {loop : Loop threads}
    (taken : s.step (.swapFunctors loop) = .ok after) : after.Depicts none := by
  obtain ⟨⟨idle, between⟩, returned⟩ := guard_ok taken
  cases returned
  have waits := BatchQueue.swap_waiting between
  intro conn object there heldAfter
  have held : s.Held none conn object := setQueue_held
    (fun functor stored => BatchQueue.swap_content between ▸ stored) heldAfter
  by_cases here : object.loop = loop
  · subst here
    have empty : functorsOf conn (none.toList ++ (s.queues object.loop).batch) = [] := by
      rw [between.1]
      rfl
    have seen : sight { s with
        queues := Function.update s.queues object.loop (s.queues object.loop).swap } none conn
        object = { s.sight none conn object with
          conn := TcpConnection.alone { object.conn with poller := s.pollers object.loop }
            (functorsOf conn (s.queues object.loop).pending) [] } := by
      simp only [sight, Function.update_self, setQueue_outstanding waits]
      rfl
    rw [seen]
    rcases depicts conn object there held with ⟨establishing, created⟩ | ⟨session, reached, shows⟩
    · have pending : functorsOf conn (s.queues object.loop).pending = [] :=
        congrArg TcpConnection.pendingFunctors created
      rw [sight, empty, pending] at created
      rw [pending]
      exact .inl ⟨establishing, created⟩
    · have mirrors := sight_mirrors shows.conn
      have taken : session.step .doPendingFunctors =
          .ok { session with conn := session.conn.swapFunctors } := by
        refine if_pos ⟨?_, ?_⟩
        · rw [shows.handlers, sight, idle]
          rfl
        · rw [mirrors.functors, empty]
      exact .inr ⟨_, reached.snoc taken, mirrors.swapFunctors, shows.handlers, shows.calls,
        shows.tabled, shows.established, shows.removed⟩
  · have seen : sight { s with
        queues := Function.update s.queues loop (s.queues loop).swap } none conn object =
        s.sight none conn object := by
      refine sight_congr rfl ?_ ?_ rfl Iff.rfl (fun functor _ => setQueue_outstanding waits functor)
      · simp only [Function.update_of_ne here]
      · simp only [Function.update_of_ne here]
    rw [seen]
    exact depicts conn object there held

theorem endFunctors_depicts (depicts : s.Depicts none) {loop : Loop threads}
    (taken : s.step (.endFunctors loop) = .ok after) : after.Depicts none := by
  obtain ⟨ended, returned⟩ := guard_ok taken
  cases returned
  have waits : (s.queues loop).finish.waiting = (s.queues loop).waiting := rfl
  have stores : ∀ functor ∈ (s.queues loop).finish.content, functor ∈ (s.queues loop).content :=
    fun functor stored => BatchQueue.mem_content_of_waiting stored
  refine depicts.keep rfl rfl (fun conn object there held => setQueue_held stores held) ?_
  intro conn object there
  refine sight_congr rfl ?_ ?_ rfl Iff.rfl (fun functor _ => setQueue_outstanding waits functor)
  · by_cases here : object.loop = loop
    · subst here
      simp only [Function.update_self]
      rfl
    · simp only [Function.update_of_ne here]
  · by_cases here : object.loop = loop
    · subst here
      simp only [Function.update_self]
      rfl
    · simp only [Function.update_of_ne here]

theorem functorsOf_absent {functors : List ServerFunctor}
    (absent : ∀ functor ∈ functors, functor.conn ≠ conn) : functorsOf conn functors = [] := by
  rw [functorsOf, List.filterMap_eq_nil_iff]
  intro functor inside
  refine if_neg fun same => absent functor inside ?_
  rw [same, ServerFunctor.conn]

/-- The new connection waits for its session, the others see nothing. -/
theorem inserted_depicts (consistent : s.Consistent none) (depicts : s.Depicts none) {fd : Nat}
    (free : s.isOpen fd = false) (small : s.nextConnId < intMax) (loop : Loop threads)
    (next : Nat) :
    (s.inserted ⟨connName s.name s.ipPort s.nextConnId, loop, TcpConnection.create s.nextConnId fd
        (64 * 1024 * 1024) s.writeCompleteCallback false⟩ next).Depicts
      (some (.connectEstablished s.nextConnId)) := by
  intro other entry found held
  rcases inserted_cases found with ⟨rfl, rfl⟩ | ⟨differ, old⟩
  · have unlisted : ∀ functor ∈ (s.queues loop).waiting, functor.conn ≠ s.nextConnId :=
      fun functor waits => consistent.conn_ne_of_stored (BatchQueue.mem_content_of_waiting waits)
    refine .inl ⟨?_, ?_⟩
    · refine (outstanding_self _ _ _).trans (congrArg (· + 1) (List.count_eq_zero.mpr ?_))
      exact fun waits => unlisted _ waits rfl
    · obtain ⟨channels, interest⟩ := consistent.vacant loop fd (fun conn object there _ sameFd => by
        by_contra index
        exact not_referenced_of_isOpen consistent free there
          (consistent.held_of_index there index) sameFd)
      have lone : (s.pollers loop).only fd = EPollPoller.create :=
        EPollPoller.only_vacant channels interest
      have batch : functorsOf s.nextConnId
          (.connectEstablished s.nextConnId :: (s.queues loop).batch) = [] := by
        rw [functorsOf_cons_of_ne (by simp)]
        exact functorsOf_absent fun functor inside =>
          unlisted functor (List.mem_append_left _ inside)
      have pending : functorsOf s.nextConnId (s.queues loop).pending = [] :=
        functorsOf_absent fun functor inside => unlisted functor (List.mem_append_right _ inside)
      show TcpConnection.alone _ (functorsOf s.nextConnId
        (.connectEstablished s.nextConnId :: (s.queues loop).batch))
        (functorsOf s.nextConnId (s.queues loop).pending) = _
      rw [batch, pending, TcpConnection.alone]
      exact congrArg (fun poller => { TcpConnection.create s.nextConnId fd (64 * 1024 * 1024)
        s.writeCompleteCallback false with poller }) lone
  · have earlier := held_of_inserted consistent rfl small old held
    have seen : (s.inserted ⟨connName s.name s.ipPort s.nextConnId, loop,
        TcpConnection.create s.nextConnId fd (64 * 1024 * 1024) s.writeCompleteCallback false⟩
          next).sight (some (.connectEstablished s.nextConnId)) other entry =
        s.sight none other entry := by
      refine sight_congr rfl ?_ rfl rfl ?_
        (outstanding_congr differ (by simp) (by simp [ServerFunctor.conn]))
      · rw [functorsOf_inHand (some (.connectEstablished s.nextConnId))
          (fun functor same => by cases same; simp)]
        rfl
      · rw [inserted_connections consistent rfl small old]
    rw [seen]
    exact depicts other entry old earlier

theorem accept_depicts (consistent : s.Consistent none) (depicts : s.Depicts none) {fd : Nat}
    (taken : s.step (.accept fd) = .ok after) : after.Depicts none := by
  obtain ⟨⟨-, free⟩, created⟩ := guard_ok taken
  obtain ⟨small, called⟩ := guard_ok created
  exact runInLoop_depicts (inserted_consistent consistent free small s.getNextLoop.1
    s.writeCompleteCallback s.getNextLoop.2)
    (inserted_depicts consistent depicts free small s.getNextLoop.1 s.getNextLoop.2)
    (Function.update_self ..) (by simp) called

theorem runFunctor_depicts (consistent : s.Consistent none) (depicts : s.Depicts none)
    {loop : Loop threads} (ran : s.runFunctor loop = .ok after) : after.Depicts none := by
  unfold runFunctor at ran
  split at ran
  · cases ran
  · rename_i functor queue taken
    exact call_depicts (next_consistent consistent taken)
      (next_depicts consistent depicts taken) ran

theorem step_depicts (consistent : s.Consistent none) (depicts : s.Depicts none)
    {event : ServerEvent threads} (taken : s.step event = .ok after) : after.Depicts none := by
  cases event with
  | accept fd => exact accept_depicts consistent depicts taken
  | handleEvent loop fd revents => exact handleEvent_depicts consistent depicts taken
  | runHandler loop read writes => exact runHandler_depicts consistent depicts taken
  | retrieve loop len => exact retrieve_depicts consistent depicts taken
  | swapFunctors loop => exact swapFunctors_depicts depicts taken
  | runFunctor loop => exact runFunctor_depicts consistent depicts (guard_ok taken).2
  | endFunctors loop => exact endFunctors_depicts depicts taken

/-- Each connection of a server goes through a session of its own: in every run, what the table or
a functor still holds is as the constructor made it and waits for `connectEstablished`, or what its
loop and the base loop have done to it since is a run of a session, which ends with the
connection's state, channel, buffers and effects, its registration in the loop's poller, its
callbacks and functors still to run, and its entry in the table. -/
theorem connections_are_sessions (config : ServerConfig) (events : List (ServerEvent threads))
    (reached : run step (create threads config) events = .ok s)
    (there : s.objects conn = some object) (referenced : s.Referenced conn object) :
    (s.sight none conn object).Explained (s.config conn object) := by
  have both : s.Consistent none ∧ s.Depicts none := Reachable.preserves
    (fun s : TcpServer threads => s.Consistent none ∧ s.Depicts none)
    (fun _ _ _ kept taken => ⟨step_keeps_consistent kept.1 taken, step_depicts kept.1 kept.2 taken⟩)
    ⟨consistent_create config, fun conn object there => by simp [create] at there⟩
    ⟨events, reached⟩
  exact both.2 conn object there (.inl referenced)

theorem connections_are_sessions_reading :
    ∃ (s : TcpServer 1) (object : ServerConn 1),
      run step (create 1 ⟨"Echo", ⟨(127, 0, 0, 1), 8080⟩, false⟩)
        [.accept 5, .swapFunctors 1, .runFunctor 1, .endFunctors 1, .handleEvent 1 5 EPOLLIN,
          .runHandler 1 (.data [1, 2]) []] = .ok s ∧
      s.objects 1 = some object ∧ (s.sight none 1 object).handlers = [.read] ∧
      (s.sight none 1 object).Explained (s.config 1 object) := by
  obtain ⟨s, reached, fact⟩ := (map_ok_iff _ _ _).mp
    (show (run step (create 1 ⟨"Echo", ⟨(127, 0, 0, 1), 8080⟩, false⟩)
        [.accept 5, .swapFunctors 1, .runFunctor 1, .endFunctors 1, .handleEvent 1 5 EPOLLIN,
          .runHandler 1 (.data [1, 2]) []]).map (fun s => (s.objects 1).map fun object =>
        ((s.sight none 1 object).handlers, decide (s.Referenced 1 object))) =
      .ok (some ([.read], true)) by decide +kernel)
  obtain ⟨object, there, pair⟩ := Option.map_eq_some_iff.mp fact
  obtain ⟨handlers, referenced⟩ := Prod.mk.inj pair
  exact ⟨s, object, reached, there, handlers,
    connections_are_sessions _ _ reached there (of_decide_eq_true referenced)⟩

end TcpServer

end KamaWebserver
