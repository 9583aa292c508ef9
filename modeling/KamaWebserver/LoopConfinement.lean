import KamaWebserver.TableAgreement

set_option autoImplicit false

namespace KamaWebserver

open Outcome Transition

/-- The loop whose thread takes the step. -/
def ServerEvent.loop {threads : Nat} : ServerEvent threads → Loop threads
  | .accept _ => baseLoop threads
  | .handleEvent loop _ _ => loop
  | .runHandler loop _ _ => loop
  | .retrieve loop _ => loop
  | .swapFunctors loop => loop
  | .runFunctor loop => loop
  | .endFunctors loop => loop

namespace TcpServer

variable {threads : Nat} {s after : TcpServer threads} {conn : Nat} {object : ServerConn threads}

/-- Of the connections only this one has changed, and of the pollers that of its loop at its
descriptor. -/
structure Confined (s : TcpServer threads) (conn : Nat) (object : ServerConn threads)
    (after : TcpServer threads) : Prop where
  pollers : ∀ loop ≠ object.loop, after.pollers loop = s.pollers loop
  poller : (s.pollers object.loop).OnlyAt object.conn.channel.fd (after.pollers object.loop)
  objects : ∀ other ≠ conn, after.objects other = s.objects other

theorem put_confined {c : TcpConnection}
    (serves : TcpConnection.Serves { object.conn with poller := s.pollers object.loop } c) :
    s.Confined conn object (s.put conn object c) := by
  refine ⟨fun loop differ => Function.update_of_ne differ .., ?_,
    fun other differ => put_objects_of_ne differ c⟩
  rw [show (s.put conn object c).pollers object.loop = c.poller from Function.update_self ..]
  exact serves.onlyAt

/-- Queues, table and callbacks do not count. -/
theorem Confined.congr {last : TcpServer threads} (confined : s.Confined conn object after)
    (pollers : last.pollers = after.pollers) (objects : last.objects = after.objects) :
    s.Confined conn object last := by
  refine ⟨?_, ?_, ?_⟩
  · rw [pollers]
    exact confined.pollers
  · rw [pollers]
    exact confined.poller
  · rw [objects]
    exact confined.objects

theorem confined_of_eq (pollers : after.pollers = s.pollers) (objects : after.objects = s.objects) :
    s.Confined conn object after := by
  have unchanged : s.Confined conn object s :=
    ⟨fun _ _ => rfl, ⟨fun _ _ => rfl, fun _ _ => rfl⟩, fun _ _ => rfl⟩
  exact unchanged.congr pollers objects

theorem removeConnectionInLoop_eq (ran : s.removeConnectionInLoop conn = .ok after) :
    after.pollers = s.pollers ∧ after.objects = s.objects ∧ after.handlers = s.handlers := by
  unfold removeConnectionInLoop at ran
  split at ran
  · cases ran
  · cases ran
    exact ⟨rfl, rfl, rfl⟩

/-- The removal of a table entry touches no connection. -/
theorem removeConnection_eq {loop : Loop threads} (ran : s.removeConnection conn loop = .ok after) :
    after.pollers = s.pollers ∧ after.objects = s.objects ∧ after.handlers = s.handlers := by
  unfold removeConnection runInLoop at ran
  split at ran
  · exact removeConnectionInLoop_eq ran
  · cases ran
    exact ⟨rfl, rfl, rfl⟩

theorem onConnection_ok {β : Type} {body : TcpConnection → Except Fault (TcpConnection × β)}
    {result : TcpServer threads × β} (there : s.objects conn = some object)
    (ran : s.onConnection conn body = .ok result) :
    ∃ c, body { object.conn with poller := s.pollers object.loop } = .ok (c, result.2) ∧
      result.1 = s.put conn object c := by
  simp only [onConnection, there] at ran
  obtain ⟨⟨c, value⟩, called, returned⟩ := (bind_ok_iff _ _ _).mp ran
  cases returned
  exact ⟨c, called, rfl⟩

theorem onConnection_handlers {β : Type} {body : TcpConnection → Except Fault (TcpConnection × β)}
    {result : TcpServer threads × β} (ran : s.onConnection conn body = .ok result) :
    result.1.handlers = s.handlers := by
  unfold onConnection at ran
  split at ran
  · cases ran
  · obtain ⟨value, _, returned⟩ := (bind_ok_iff _ _ _).mp ran
    cases returned
    rfl

theorem call_handlers {functor : ServerFunctor} (ran : s.call functor = .ok after) :
    after.handlers = s.handlers := by
  cases functor with
  | connectEstablished conn | connectDestroyed conn =>
      obtain ⟨result, called, returned⟩ := (bind_ok_iff _ _ _).mp ran
      cases returned
      exact onConnection_handlers called
  | removeConnectionInLoop conn => exact (removeConnectionInLoop_eq ran).2.2

/-- The queues have at most got longer. -/
def Pushes (s after : TcpServer threads) : Prop :=
  ∀ loop, ∃ functors, after.queues loop = (s.queues loop).push functors

theorem pushes_of_eq (queues : after.queues = s.queues) : s.Pushes after := by
  intro loop
  exact ⟨[], by rw [queues, BatchQueue.push_nil]⟩

theorem queueInLoop_pushes (loop : Loop threads) (functor : ServerFunctor) :
    s.Pushes (s.queueInLoop loop functor) := by
  intro other
  by_cases same : other = loop
  · subst same
    exact ⟨[functor], Function.update_self ..⟩
  · exact ⟨[], (Function.update_of_ne same ..).trans (BatchQueue.push_nil _).symm⟩

theorem onConnection_queues {β : Type} {body : TcpConnection → Except Fault (TcpConnection × β)}
    {result : TcpServer threads × β} (ran : s.onConnection conn body = .ok result) :
    result.1.queues = s.queues := by
  unfold onConnection at ran
  split at ran
  · cases ran
  · obtain ⟨value, _, returned⟩ := (bind_ok_iff _ _ _).mp ran
    cases returned
    rfl

theorem call_pushes {functor : ServerFunctor} (ran : s.call functor = .ok after) :
    s.Pushes after := by
  cases functor with
  | connectEstablished conn | connectDestroyed conn =>
      obtain ⟨result, called, returned⟩ := (bind_ok_iff _ _ _).mp ran
      cases returned
      exact pushes_of_eq (onConnection_queues called)
  | removeConnectionInLoop conn =>
      simp only [call, removeConnectionInLoop] at ran
      split at ran
      · cases ran
      · cases ran
        exact queueInLoop_pushes _ _

theorem runInLoop_pushes {caller loop : Loop threads} {functor : ServerFunctor}
    (ran : s.runInLoop caller loop functor = .ok after) : s.Pushes after := by
  unfold runInLoop at ran
  split at ran
  · exact call_pushes ran
  · cases ran
    exact queueInLoop_pushes _ _

/-- A functor works on its own connection, in the poller of that connection's loop. -/
theorem call_confined {functor : ServerFunctor} (consistent : s.Consistent (some functor))
    (there : s.objects functor.conn = some object) (ran : s.call functor = .ok after) :
    s.Confined functor.conn object after := by
  have held : s.Held (some functor) functor.conn object := .inr ⟨_, rfl, rfl⟩
  have counted := outstanding_self s object functor
  cases functor with
  | connectEstablished conn =>
      change s.objects conn = some object at there
      cases consistent.stage conn object there with
      | fresh index _ _ _ _ _ =>
          obtain ⟨c, established, serves, -⟩ :=
            TcpConnection.connectEstablished_serves (consistent.ready there held) index
          simp only [call, onConnection_map_eq TcpConnection.connectEstablished there established]
            at ran
          cases ran
          exact put_confined serves
      | up _ _ _ establishing _ _ => omega
      | down _ _ establishing _ _ => omega
  | connectDestroyed conn =>
      change s.objects conn = some object at there
      cases consistent.stage conn object there with
      | fresh _ _ _ _ _ destroying => omega
      | up _ _ _ _ _ destroying => omega
      | down state _ _ _ _ =>
          obtain ⟨c, destroyed, serves, -⟩ :=
            TcpConnection.connectDestroyed_serves (consistent.ready there held) state
          simp only [call, onConnection_map_eq TcpConnection.connectDestroyed there destroyed]
            at ran
          cases ran
          exact put_confined serves
  | removeConnectionInLoop conn =>
      obtain ⟨pollers, objects, -⟩ := removeConnectionInLoop_eq ran
      exact confined_of_eq pollers objects

/-- A callback of a channel works on its connection, and leaves the other callbacks. -/
theorem runHandler_confined (consistent : s.Consistent none) {loop : Loop threads}
    {read : ReadResult} {writes : List IoResult}
    (ran : s.runHandler loop read writes = .ok after) :
    ∃ handler ∈ s.handlers loop, ∃ object, s.objects handler.1 = some object ∧
      object.loop = loop ∧ s.Confined handler.1 object after ∧
      (∀ other ≠ loop, after.handlers other = s.handlers other) ∧
      ∀ entry ∈ after.handlers loop, entry ∈ s.handlers loop := by
  unfold runHandler at ran
  cases waiting : s.handlers loop with
  | nil =>
      rw [waiting] at ran
      cases ran
  | cons entry rest =>
      obtain ⟨conn, handler⟩ := entry
      obtain ⟨object, there, here, index⟩ :=
        consistent.handled loop (conn, handler) (waiting ▸ List.mem_cons_self)
      simp only [waiting] at ran
      obtain ⟨⟨middle, again⟩, called, rest'⟩ := (bind_ok_iff _ _ _).mp ran
      have confined : s.Confined conn object middle := by
        have outcome := TcpConnection.run_spec
          (consistent.ready there (consistent.held_of_index there index)) handler read writes
        obtain ⟨c, handled, same⟩ := onConnection_ok there called
        change middle = s.put conn object c at same
        rw [same]
        rcases outcome.of_ok handled with stays | closes
        · exact put_confined stays.serves
        · exact put_confined closes.serves
      let left : TcpServer threads := { middle with
        handlers := Function.update s.handlers loop
          (if again then (conn, handler) :: rest else rest) }
      have kept : s.Confined conn object left := confined.congr rfl rfl
      have others : ∀ other ≠ loop, left.handlers other = s.handlers other := fun other differ =>
        Function.update_of_ne differ ..
      have shrinks : ∀ entry ∈ left.handlers loop, entry ∈ (conn, handler) :: rest := by
        intro entry inside
        rw [show left.handlers loop = _ from Function.update_self ..] at inside
        cases again with
        | true => exact inside
        | false => exact List.mem_cons_of_mem _ inside
      refine ⟨(conn, handler), List.mem_cons_self, object, there, here, ?_⟩
      change (if left.closes conn = s.closes conn then .ok left
        else left.removeConnection conn loop) = .ok after at rest'
      split at rest'
      · rw [← Except.ok.inj rest']
        exact ⟨kept, others, shrinks⟩
      · obtain ⟨pollers, objects, handlers⟩ := removeConnection_eq rest'
        rw [handlers]
        exact ⟨kept.congr pollers objects, others, shrinks⟩

theorem retrieve_confined (consistent : s.Consistent none) {loop : Loop threads} {len : Nat}
    (taken : s.step (.retrieve loop len) = .ok after) :
    ∃ handler ∈ s.handlers loop, ∃ object, s.objects handler.1 = some object ∧
      object.loop = loop ∧ s.Confined handler.1 object after ∧ after.handlers = s.handlers ∧
      after.queues = s.queues := by
  simp only [step] at taken
  cases waiting : s.handlers loop with
  | nil =>
      rw [waiting] at taken
      cases taken
  | cons entry rest =>
      obtain ⟨conn, handler⟩ := entry
      obtain ⟨object, there, here, -⟩ :=
        consistent.handled loop (conn, handler) (waiting ▸ List.mem_cons_self)
      rw [waiting] at taken
      obtain ⟨result, called, returned⟩ := (bind_ok_iff _ _ _).mp taken
      cases returned
      refine ⟨(conn, handler), List.mem_cons_self, object, there, here, ?_,
        onConnection_handlers called, onConnection_queues called⟩
      obtain ⟨c, retrieved, same⟩ := onConnection_ok there called
      cases retrieved
      rw [same]
      refine ⟨fun loop differ => Function.update_of_ne differ .., ?_,
        fun other differ => put_objects_of_ne differ _⟩
      have unchanged : (s.put conn object (TcpConnection.retrieveInput
          { object.conn with poller := s.pollers object.loop } len)).pollers object.loop =
          s.pollers object.loop := Function.update_self ..
      rw [unchanged]
      exact ⟨fun _ _ => rfl, fun _ _ => rfl⟩

/-- An accept makes one connection, and touches the base loop's poller at most. -/
theorem newConnection_confined (consistent : s.Consistent none) {fd : Nat}
    (free : s.isOpen fd = false) (ran : s.newConnection fd = .ok after) :
    (∀ loop ≠ baseLoop threads, after.pollers loop = s.pollers loop) ∧
      (s.pollers (baseLoop threads)).OnlyAt fd (after.pollers (baseLoop threads)) ∧
      (∀ conn object, s.objects conn = some object → after.objects conn = some object) ∧
      after.handlers = s.handlers := by
  obtain ⟨small, called⟩ := guard_ok ran
  let object : ServerConn threads := ⟨connName s.name s.ipPort s.nextConnId, s.getNextLoop.1,
    TcpConnection.create s.nextConnId fd (64 * 1024 * 1024) s.writeCompleteCallback false⟩
  let middle := s.inserted object s.getNextLoop.2
  have inserted : middle.Consistent (some (.connectEstablished s.nextConnId)) :=
    inserted_consistent consistent free small s.getNextLoop.1 s.writeCompleteCallback
      s.getNextLoop.2
  have found : middle.objects s.nextConnId = some object := Function.update_self ..
  have earlier : ∀ conn entry, s.objects conn = some entry → middle.objects conn = some entry :=
    fun _ _ there => inserted_found consistent there
  change middle.runInLoop (baseLoop threads) object.loop (.connectEstablished s.nextConnId) =
    .ok after at called
  unfold runInLoop at called
  split at called
  · rename_i here
    obtain ⟨pollers, poller, objects⟩ := call_confined inserted found called
    have handlers : after.handlers = middle.handlers := call_handlers called
    rw [← here] at pollers poller
    refine ⟨pollers, poller, fun conn entry there => ?_, handlers⟩
    rw [objects conn (consistent.ne_of_found there)]
    exact earlier conn entry there
  · cases called
    exact ⟨fun _ _ => rfl, ⟨fun _ _ => rfl, fun _ _ => rfl⟩, earlier, rfl⟩

/-- The steps in which a loop runs callbacks or accepts only add to queues. -/
theorem runHandler_pushes {loop : Loop threads} {read : ReadResult} {writes : List IoResult}
    (ran : s.runHandler loop read writes = .ok after) : s.Pushes after := by
  unfold runHandler at ran
  split at ran
  · cases ran
  · rename_i conn handler rest waiting
    obtain ⟨⟨middle, again⟩, called, rest'⟩ := (bind_ok_iff _ _ _).mp ran
    have same : middle.queues = s.queues := onConnection_queues called
    let left : TcpServer threads := { middle with
      handlers := Function.update s.handlers loop
        (if again then (conn, handler) :: rest else rest) }
    have unchanged : left.queues = s.queues := same
    change (if left.closes conn = s.closes conn then .ok left
      else left.removeConnection conn loop) = .ok after at rest'
    split at rest'
    · rw [← Except.ok.inj rest']
      exact pushes_of_eq unchanged
    · have pushes : left.Pushes after := runInLoop_pushes rest'
      intro other
      rw [← unchanged]
      exact pushes other

theorem newConnection_pushes {fd : Nat} (ran : s.newConnection fd = .ok after) :
    s.Pushes after := by
  obtain ⟨-, called⟩ := guard_ok ran
  exact fun loop => runInLoop_pushes called loop

theorem runFunctor_handlers {loop : Loop threads} (taken : s.step (.runFunctor loop) = .ok after) :
    after.handlers = s.handlers := by
  obtain ⟨-, ran⟩ := guard_ok taken
  simp only [runFunctor] at ran
  split at ran
  · cases ran
  · rename_i functor queue next
    let middle : TcpServer threads := { s with queues := Function.update s.queues loop queue }
    have handlers : after.handlers = middle.handlers := call_handlers ran
    exact handlers

/-- What a step leaves alone: the pollers, the callbacks and the connections of the other loops,
and their queues but for what it adds. -/
structure Spares (s : TcpServer threads) (event : ServerEvent threads) (after : TcpServer threads) :
    Prop where
  pollers : ∀ loop ≠ event.loop, after.pollers loop = s.pollers loop
  handlers : ∀ loop ≠ event.loop, after.handlers loop = s.handlers loop
  objects : ∀ conn object, s.objects conn = some object → object.loop ≠ event.loop →
    after.objects conn = some object
  queues : ∀ loop ≠ event.loop, ∃ functors, after.queues loop = (s.queues loop).push functors

theorem Confined.spares (confined : s.Confined conn object after)
    (there : s.objects conn = some object) {event : ServerEvent threads}
    (here : object.loop = event.loop)
    (handlers : ∀ loop ≠ event.loop, after.handlers loop = s.handlers loop)
    (queues : ∀ loop ≠ event.loop, ∃ functors, after.queues loop = (s.queues loop).push functors) :
    s.Spares event after := by
  refine ⟨here ▸ confined.pollers, handlers, fun other entry found differ => ?_, queues⟩
  have apart : other ≠ conn := by
    intro same
    subst same
    cases there.symm.trans found
    exact differ here
  rw [confined.objects other apart]
  exact found

/-- One loop per thread. -/
theorem step_spares (consistent : s.Consistent none) {event : ServerEvent threads}
    (taken : s.step event = .ok after) : s.Spares event after := by
  cases event with
  | accept fd =>
      obtain ⟨⟨-, free⟩, created⟩ := guard_ok taken
      obtain ⟨pollers, -, objects, handlers⟩ := newConnection_confined consistent free created
      exact ⟨pollers, fun _ _ => congrFun handlers _,
        fun conn object there _ => objects conn object there,
        fun loop _ => newConnection_pushes created loop⟩
  | handleEvent loop fd revents =>
      simp only [step] at taken
      split at taken
      · cases taken
      · obtain ⟨-, returned⟩ := guard_ok taken
        cases returned
        exact ⟨fun _ _ => rfl, fun _ differ => Function.update_of_ne differ ..,
          fun _ _ there _ => there, fun loop _ => pushes_of_eq rfl loop⟩
  | runHandler loop read writes =>
      obtain ⟨handler, -, object, there, here, confined, handlers, -⟩ :=
        runHandler_confined consistent taken
      exact confined.spares there here handlers fun loop _ => runHandler_pushes taken loop
  | retrieve loop len =>
      obtain ⟨handler, -, object, there, here, confined, handlers, queues⟩ :=
        retrieve_confined consistent taken
      exact confined.spares there here (fun _ _ => congrFun handlers _)
        fun loop _ => pushes_of_eq queues loop
  | swapFunctors loop =>
      obtain ⟨-, returned⟩ := guard_ok taken
      cases returned
      exact ⟨fun _ _ => rfl, fun _ _ => rfl, fun _ _ there _ => there, fun other differ =>
        ⟨[], (Function.update_of_ne differ ..).trans (BatchQueue.push_nil _).symm⟩⟩
  | runFunctor loop =>
      obtain ⟨-, ran⟩ := guard_ok taken
      simp only [runFunctor] at ran
      split at ran
      · cases ran
      · rename_i functor queue next
        let middle : TcpServer threads := { s with queues := Function.update s.queues loop queue }
        have stored : functor ∈ (s.queues loop).content := BatchQueue.mem_content_of_waiting
          (BatchQueue.next_waiting next ▸ List.mem_cons_self)
        obtain ⟨object, there, here⟩ := consistent.placed loop functor stored
        have running : middle.Consistent (some functor) := next_consistent consistent next
        have handlers : after.handlers = s.handlers := runFunctor_handlers taken
        have queues : ∀ other ≠ loop, ∃ functors,
            after.queues other = (s.queues other).push functors := by
          intro other differ
          rw [← show middle.queues other = s.queues other from Function.update_of_ne differ ..]
          exact call_pushes ran other
        cases functor with
        | removeConnectionInLoop conn =>
            obtain ⟨pollers, objects, -⟩ := removeConnectionInLoop_eq ran
            exact ⟨fun _ _ => congrFun pollers _, fun _ _ => congrFun handlers _,
              fun conn object there _ => (congrFun objects conn).trans there, queues⟩
        | connectEstablished conn | connectDestroyed conn =>
            have confined : middle.Confined conn object after := call_confined running there ran
            have own : s.Confined conn object after :=
              ⟨confined.pollers, confined.poller, confined.objects⟩
            have home : object.loop = loop := here.symm
            exact own.spares there home (fun _ _ => congrFun handlers _) queues
  | endFunctors loop =>
      obtain ⟨-, returned⟩ := guard_ok taken
      cases returned
      exact ⟨fun _ _ => rfl, fun _ _ => rfl, fun _ _ there _ => there, fun other differ =>
        ⟨[], (Function.update_of_ne differ ..).trans (BatchQueue.push_nil _).symm⟩⟩

theorem step_keeps_consistent (consistent : s.Consistent none) {event : ServerEvent threads}
    (taken : s.step event = .ok after) : after.Consistent none := by
  have counts : s.Counts event := by
    cases event with
    | accept fd =>
        obtain ⟨-, created⟩ := guard_ok taken
        exact (guard_ok created).1
    | handleEvent | runHandler | retrieve | swapFunctors | runFunctor | endFunctors => trivial
  exact (step_consistent consistent event counts).of_ok taken

theorem run_consistent {config : ServerConfig} {events : List (ServerEvent threads)}
    (reached : run step (create threads config) events = .ok s) : s.Consistent none :=
  Reachable.preserves (Consistent none)
    (fun _ _ _ consistent taken => step_keeps_consistent consistent taken)
    (consistent_create config) ⟨events, reached⟩

theorem run_nextConnId {events : List (ServerEvent threads)}
    (reached : run step s events = .ok after) :
    after.nextConnId = s.nextConnId + (events.map accepts).sum := by
  induction events generalizing s with
  | nil =>
      cases reached
      rfl
  | cons event events ih =>
      obtain ⟨next, taken, rest⟩ := (run_cons_ok_iff s after event events).mp reached
      rw [ih rest, step_nextConnId taken, List.map_cons, List.sum_cons, Nat.add_assoc]

/-- In every run of the loops each step stays within its own loop: whatever the thread does, the
pollers, the callbacks and the connections of the other loops are as before. -/
theorem loops_confined (config : ServerConfig) (events : List (ServerEvent threads))
    (reached : run step (create threads config) events = .ok s) (event : ServerEvent threads)
    (taken : s.step event = .ok after) : s.Spares event after :=
  step_spares (run_consistent reached) taken

/-- Loop 1 reads the end of its connection while loop 2 has an open one. -/
theorem loops_confined_close :
    ∃ s after : TcpServer 2,
      run step (create 2 ⟨"Echo", ⟨(127, 0, 0, 1), 8080⟩, false⟩)
        [.accept 5, .accept 6, .swapFunctors 1, .runFunctor 1, .endFunctors 1, .swapFunctors 2,
          .runFunctor 2, .endFunctors 2, .handleEvent 2 6 EPOLLIN, .handleEvent 1 5 EPOLLIN] =
        .ok s ∧
      s.step (.runHandler 1 (.data []) []) = .ok after ∧
      ((after.pollers 1).interest 5, ((after.pollers 2).interest 6).isSome) = (none, true) ∧
      s.Spares (.runHandler 1 (.data []) []) after := by
  obtain ⟨after, ran, watched⟩ := (map_ok_iff _ _ _).mp
    (show (run step (create 2 ⟨"Echo", ⟨(127, 0, 0, 1), 8080⟩, false⟩)
        ([.accept 5, .accept 6, .swapFunctors 1, .runFunctor 1, .endFunctors 1, .swapFunctors 2,
          .runFunctor 2, .endFunctors 2, .handleEvent 2 6 EPOLLIN, .handleEvent 1 5 EPOLLIN] ++
          [.runHandler 1 (.data []) []])).map
      (fun s => ((s.pollers 1).interest 5, ((s.pollers 2).interest 6).isSome)) =
        .ok (none, true) by decide +kernel)
  rw [run_append] at ran
  obtain ⟨s, reached, last⟩ := (bind_ok_iff _ _ _).mp ran
  obtain ⟨next, taken, same⟩ := (run_cons_ok_iff _ _ _ _).mp last
  cases same
  exact ⟨s, after, reached, taken, watched, loops_confined _ _ reached _ taken⟩

end TcpServer

end KamaWebserver
