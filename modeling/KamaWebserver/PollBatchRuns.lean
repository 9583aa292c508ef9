import KamaWebserver.PollBatch

set_option autoImplicit false

namespace KamaWebserver

open Outcome Transition

namespace EPollPoller

variable {p : EPollPoller} {reported : List (Nat × EventMask)}

theorem mem_fillActiveChannels {channel : ActiveChannel} :
    channel ∈ p.fillActiveChannels reported ↔
      (channel.fd, channel.revents) ∈ reported ∧
        ∃ mask, p.interest channel.fd = some (mask, channel.conn) := by
  obtain ⟨fd, conn, revents⟩ := channel
  simp only [fillActiveChannels, List.mem_filterMap, Option.map_eq_some_iff, ActiveChannel.mk.injEq]
  constructor
  · intro ⟨⟨fd', revents'⟩, inside, ⟨mask, conn'⟩, watched, sameFd, sameConn, sameEvents⟩
    subst sameFd sameConn sameEvents
    exact ⟨inside, mask, watched⟩
  · intro ⟨inside, mask, watched⟩
    exact ⟨(fd, revents), inside, (mask, conn), watched, rfl, rfl, rfl⟩

theorem fillActiveChannels_fds (watched : ∀ event ∈ reported, p.Watches event.1 event.2) :
    (p.fillActiveChannels reported).map ActiveChannel.fd = reported.map Prod.fst := by
  induction reported with
  | nil => rfl
  | cons event rest ih =>
      have first := watched event List.mem_cons_self
      have later := ih fun other inside => watched other (List.mem_cons_of_mem _ inside)
      unfold Watches at first
      cases found : p.interest event.1 with
      | none =>
          rw [found] at first
          exact first.elim
      | some entry =>
          simp only [fillActiveChannels, List.filterMap_cons, found, Option.map_some,
            List.map_cons, List.cons.injEq, true_and]
          exact later

end EPollPoller

namespace PolledServer

variable {threads : Nat} {s after : PolledServer threads} {loop : Loop threads}

/-- epoll still watches the channel as it did when it was reported. -/
def Known (s : PolledServer threads) (loop : Loop threads) (channel : ActiveChannel) : Prop :=
  ∃ mask, (s.server.pollers loop).interest channel.fd = some (mask, channel.conn) ∧
    channel.revents &&& ~~~ (mask ||| EPOLLERR ||| EPOLLHUP) = 0

/-- What holds of one loop: the channels still to be handled are known, of different connections,
and none is the one at hand. -/
structure Lined (s : PolledServer threads) (loop : Loop threads) : Prop where
  known : ∀ channel ∈ s.active loop, s.Known loop channel
  apart : ((s.active loop).map ActiveChannel.conn).Nodup
  inHand : ∀ channel ∈ s.active loop, ∀ entry ∈ s.server.handlers loop, entry.1 ≠ channel.conn
  between : s.turn loop ≠ .pending → (s.server.queues loop).Between
  unused : s.turn loop ≠ .handling → s.active loop = [] ∧ s.server.handlers loop = []

structure Inv (s : PolledServer threads) : Prop where
  consistent : s.server.Consistent none
  lined : ∀ loop, s.Lined loop

/-- A step that leaves the loop's list, what epoll holds for it, and the batch. -/
theorem Lined.keep (lined : s.Lined loop) (turn : after.turn loop = s.turn loop)
    (active : after.active loop = s.active loop)
    (interest : ∀ channel ∈ s.active loop,
      (after.server.pollers loop).interest channel.fd =
        (s.server.pollers loop).interest channel.fd)
    (handlers : ∀ entry ∈ after.server.handlers loop, entry ∈ s.server.handlers loop)
    (queues : ∃ functors, after.server.queues loop = (s.server.queues loop).push functors) :
    after.Lined loop := by
  obtain ⟨functors, queues⟩ := queues
  refine ⟨?_, ?_, ?_, ?_, ?_⟩
  · rw [active]
    intro channel inside
    obtain ⟨mask, watched, within⟩ := lined.known channel inside
    exact ⟨mask, (interest channel inside).trans watched, within⟩
  · rw [active]
    exact lined.apart
  · rw [active]
    exact fun channel inside entry left => lined.inHand channel inside entry (handlers entry left)
  · rw [turn, queues]
    exact lined.between
  · rw [turn, active]
    intro elsewhere
    obtain ⟨empty, none⟩ := lined.unused elsewhere
    refine ⟨empty, List.eq_nil_iff_forall_not_mem.mpr fun entry left => ?_⟩
    have earlier := handlers entry left
    rw [none] at earlier
    cases earlier

/-- The loops whose thread does not take the step. -/
theorem Lined.spared {event : ServerEvent threads} (lined : s.Lined loop)
    (spares : s.server.Spares event after.server) (elsewhere : loop ≠ event.loop)
    (turn : after.turn loop = s.turn loop) (active : after.active loop = s.active loop) :
    after.Lined loop := by
  refine lined.keep turn active (fun channel _ => ?_) (fun entry left => ?_)
    (spares.queues loop elsewhere)
  · rw [spares.pollers loop elsewhere]
  · rwa [spares.handlers loop elsewhere] at left

/-- The channel is that of a connection with a reference. -/
theorem Known.live (consistent : s.server.Consistent none) {channel : ActiveChannel}
    (known : s.Known loop channel) :
    ∃ object, s.server.objects channel.conn = some object ∧ object.loop = loop ∧
      object.conn.channel.fd = channel.fd ∧ s.server.Referenced channel.conn object := by
  obtain ⟨mask, watched, -⟩ := known
  obtain ⟨object, there, here, fd, index, -⟩ := consistent.of_interest watched
  have registered : object.conn.channel.index ≠ .kNew := by simp [index]
  rcases consistent.held_of_index there registered with referenced | ⟨functor, none, -⟩
  · exact ⟨object, there, here, fd, referenced⟩
  · cases none

/-- A callback of one connection leaves what epoll holds for the others. -/
theorem Known.interest_of_ne (consistent : s.server.Consistent none) {channel : ActiveChannel}
    (known : s.Known loop channel) {conn : Nat} {object : ServerConn threads}
    (there : s.server.objects conn = some object) (here : object.loop = loop)
    (index : object.conn.channel.index ≠ .kNew) (differ : conn ≠ channel.conn)
    {server : TcpServer threads} (confined : s.server.Confined conn object server) :
    (server.pollers loop).interest channel.fd = (s.server.pollers loop).interest channel.fd := by
  obtain ⟨owner, found, -, fd, referenced⟩ := known.live consistent
  have apart : channel.fd ≠ object.conn.channel.fd := by
    intro same
    exact differ (consistent.apart conn channel.conn object owner there found
      (consistent.held_of_index there index) (.inl referenced) (same.symm.trans fd.symm))
  have poller := confined.poller.interest channel.fd apart
  rw [here] at poller
  exact poller

/-- Descriptors reported once belong to different connections. -/
theorem conns_nodup (consistent : s.server.Consistent none) {channels : List ActiveChannel}
    (known : ∀ channel ∈ channels, s.Known loop channel)
    (apart : (channels.map ActiveChannel.fd).Nodup) :
    (channels.map ActiveChannel.conn).Nodup := by
  induction channels with
  | nil => exact List.nodup_nil
  | cons channel rest ih =>
      rw [List.map_cons, List.nodup_cons] at apart ⊢
      refine ⟨fun again => apart.1 ?_,
        ih (fun other inside => known other (List.mem_cons_of_mem _ inside)) apart.2⟩
      obtain ⟨other, inside, same⟩ := List.mem_map.mp again
      obtain ⟨object, there, -, fd, -⟩ := (known channel List.mem_cons_self).live consistent
      obtain ⟨object', there', -, fd', -⟩ :=
        (known other (List.mem_cons_of_mem _ inside)).live consistent
      rw [same] at there'
      cases there.symm.trans there'
      exact List.mem_map.mpr ⟨other, inside, fd'.symm.trans fd⟩

theorem inv_create (config : ServerConfig) : (create threads config).Inv :=
  ⟨TcpServer.consistent_create config, fun _ =>
    ⟨List.forall_mem_nil _, List.nodup_nil, List.forall_mem_nil _, fun _ => ⟨rfl, rfl⟩,
      fun _ => ⟨rfl, rfl⟩⟩⟩

theorem poll_inv (inv : s.Inv) {reported : List (Nat × EventMask)}
    (turn : s.turn loop = .polling)
    (reports : (s.server.pollers loop).Reports reported) :
    (s.poll loop reported).Inv := by
  refine ⟨inv.consistent, fun other => ?_⟩
  have lined := inv.lined other
  by_cases same : other = loop
  · subst same
    have filled : (s.poll other reported).active other =
        (s.server.pollers other).fillActiveChannels reported := Function.update_self ..
    have known : ∀ channel ∈ (s.server.pollers other).fillActiveChannels reported,
        s.Known other channel := by
      intro channel inside
      obtain ⟨inside, mask, watched⟩ := EPollPoller.mem_fillActiveChannels.mp inside
      have within := reports.2 _ inside
      simp only [EPollPoller.Watches, watched] at within
      exact ⟨mask, watched, within⟩
    have none : s.server.handlers other = [] := (lined.unused (by simp [turn])).2
    refine ⟨?_, ?_, ?_, ?_, ?_⟩
    · rw [filled]
      exact known
    · rw [filled]
      apply conns_nodup inv.consistent known
      rw [EPollPoller.fillActiveChannels_fds reports.2]
      exact reports.1
    · intro channel _ entry left
      rw [show (s.poll other reported).server.handlers other = [] from none] at left
      cases left
    · exact fun _ => lined.between (by simp [turn])
    · intro elsewhere
      exact absurd (Function.update_self ..) elsewhere
  · exact lined.keep (Function.update_of_ne same ..) (Function.update_of_ne same ..)
      (fun _ _ => rfl) (fun _ left => left) ⟨[], (BatchQueue.push_nil _).symm⟩

/-- Handling the next channel is what the server does when epoll reports it alone. -/
theorem handleChannel_eq (inv : s.Inv) {channel : ActiveChannel} {rest : List ActiveChannel}
    (front : s.active loop = channel :: rest) (turn : s.turn loop = .handling)
    (free : s.server.handlers loop = []) :
    ∃ server, s.server.step (.handleEvent loop channel.fd channel.revents) = .ok server ∧
      s.handleChannel loop = .ok { s with server, active := Function.update s.active loop rest } ∧
      server.handlers loop =
        (handlersOf channel.revents).map (fun handler => (channel.conn, handler)) ∧
      server.pollers = s.server.pollers ∧ server.queues = s.server.queues := by
  have lined := inv.lined loop
  have known := lined.known channel (front ▸ List.mem_cons_self)
  obtain ⟨object, there, -, -, referenced⟩ := known.live inv.consistent
  obtain ⟨mask, watched, within⟩ := known
  have idle : s.server.Idle loop := ⟨free, lined.between (by simp [turn])⟩
  let handlers := (handlersOf channel.revents).map fun handler => (channel.conn, handler)
  refine ⟨{ s.server with handlers := Function.update s.server.handlers loop handlers }, ?_, ?_,
    Function.update_self .., rfl, rfl⟩
  · simp only [TcpServer.step, watched]
    exact if_pos ⟨idle, within⟩
  · simp only [handleChannel, front, there]
    exact if_pos referenced

/-- The steps of the server a step of the loops is. -/
def serverEvents (s : PolledServer threads) : PolledEvent threads → List (ServerEvent threads)
  | .poll _ _ => []
  | .accept fd => [.accept fd]
  | .handleChannel loop =>
      match s.active loop with
      | [] => []
      | channel :: _ => [.handleEvent loop channel.fd channel.revents]
  | .runHandler loop read writes => [.runHandler loop read writes]
  | .retrieve loop len => [.retrieve loop len]
  | .endChannels loop => [.swapFunctors loop]
  | .runFunctor loop => [.runFunctor loop]
  | .endFunctors loop => [.endFunctors loop]

theorem onServer_ok {event : ServerEvent threads} (taken : s.onServer event = .ok after) :
    ∃ server, s.server.step event = .ok server ∧ after = { s with server } := by
  obtain ⟨server, stepped, same⟩ := (map_ok_iff _ _ _).mp taken
  exact ⟨server, stepped, same.symm⟩

theorem run_single {event : ServerEvent threads} {server next : TcpServer threads}
    (taken : server.step event = .ok next) : run TcpServer.step server [event] = .ok next :=
  (run_cons_ok_iff _ _ _ _).mpr ⟨next, taken, rfl⟩

theorem step_refines (inv : s.Inv) {event : PolledEvent threads}
    (taken : s.step event = .ok after) :
    run TcpServer.step s.server (s.serverEvents event) = .ok after.server := by
  cases event with
  | poll loop reported =>
      obtain ⟨-, taken⟩ := guard_ok taken
      cases taken
      rfl
  | accept fd =>
      obtain ⟨-, taken⟩ := guard_ok taken
      obtain ⟨server, stepped, rfl⟩ := onServer_ok taken
      exact run_single stepped
  | handleChannel loop =>
      obtain ⟨⟨turn, free⟩, taken⟩ := guard_ok taken
      cases front : s.active loop with
      | nil =>
          rw [handleChannel, front] at taken
          cases taken
      | cons channel rest =>
          obtain ⟨server, stepped, handled, -⟩ := handleChannel_eq inv front turn free
          cases handled.symm.trans taken
          rw [serverEvents, front]
          exact run_single stepped
  | runHandler loop read writes =>
      obtain ⟨server, stepped, rfl⟩ := onServer_ok taken
      exact run_single stepped
  | retrieve loop len =>
      obtain ⟨server, stepped, rfl⟩ := onServer_ok taken
      exact run_single stepped
  | endChannels loop =>
      obtain ⟨-, taken⟩ := guard_ok taken
      obtain ⟨middle, ran, rfl⟩ := (map_ok_iff _ _ _).mp taken
      obtain ⟨server, stepped, rfl⟩ := onServer_ok ran
      exact run_single stepped
  | runFunctor loop =>
      obtain ⟨-, taken⟩ := guard_ok taken
      obtain ⟨server, stepped, rfl⟩ := onServer_ok taken
      exact run_single stepped
  | endFunctors loop =>
      obtain ⟨-, taken⟩ := guard_ok taken
      obtain ⟨middle, ran, rfl⟩ := (map_ok_iff _ _ _).mp taken
      obtain ⟨server, stepped, rfl⟩ := onServer_ok ran
      exact run_single stepped

/-- The loops that stay where they are while another thread's step goes on. -/
theorem lined_of_spares (inv : s.Inv) {event : ServerEvent threads}
    (stepped : s.server.step event = .ok after.server)
    (turn : ∀ loop ≠ event.loop, after.turn loop = s.turn loop)
    (active : ∀ loop ≠ event.loop, after.active loop = s.active loop)
    (own : after.Lined event.loop) : ∀ loop, after.Lined loop := by
  intro loop
  by_cases same : loop = event.loop
  · rw [same]
    exact own
  · exact (inv.lined loop).spared (TcpServer.step_spares inv.consistent stepped) same
      (turn loop same) (active loop same)

/-- A callback works on the connection at hand, which is in no list. -/
theorem lined_of_confined (inv : s.Inv) (server : TcpServer threads) {handler : Nat × Handler}
    (left : handler ∈ s.server.handlers loop) {object : ServerConn threads}
    (there : s.server.objects handler.1 = some object) (here : object.loop = loop)
    (confined : s.server.Confined handler.1 object server)
    (handlers : ∀ entry ∈ server.handlers loop, entry ∈ s.server.handlers loop)
    (queues : s.server.Pushes server) : ({ s with server } : PolledServer threads).Lined loop := by
  have lined := inv.lined loop
  obtain ⟨object', there', -, index⟩ := inv.consistent.handled loop handler left
  cases there.symm.trans there'
  refine lined.keep rfl rfl (fun channel inside => ?_) handlers (queues loop)
  exact (lined.known channel inside).interest_of_ne inv.consistent there here index
    (lined.inHand channel inside handler left) confined

theorem accept_lined (inv : s.Inv) {fd : Nat} {server : TcpServer threads}
    (stepped : s.server.step (.accept fd) = .ok server) :
    ({ s with server } : PolledServer threads).Lined (baseLoop threads) := by
  obtain ⟨⟨-, free⟩, created⟩ := guard_ok stepped
  obtain ⟨-, poller, -, handlers⟩ :=
    TcpServer.newConnection_confined inv.consistent free created
  have lined := inv.lined (baseLoop threads)
  refine lined.keep rfl rfl (fun channel inside => poller.interest _ fun same => ?_)
    (fun entry left => handlers ▸ left) (TcpServer.newConnection_pushes created _)
  obtain ⟨object, there, -, fd, referenced⟩ := (lined.known channel inside).live inv.consistent
  exact TcpServer.not_referenced_of_isOpen inv.consistent free there (.inl referenced)
    (fd.trans same)

theorem handleChannel_lined (inv : s.Inv) {channel : ActiveChannel} {rest : List ActiveChannel}
    (front : s.active loop = channel :: rest) (turn : s.turn loop = .handling)
    {server : TcpServer threads}
    (handlers : server.handlers loop =
      (handlersOf channel.revents).map fun handler => (channel.conn, handler))
    (pollers : server.pollers = s.server.pollers) (queues : server.queues = s.server.queues) :
    ({ s with server, active := Function.update s.active loop rest } :
      PolledServer threads).Lined loop := by
  have lined := inv.lined loop
  have known := lined.known
  have apart := lined.apart
  rw [front] at known apart
  rw [List.map_cons, List.nodup_cons] at apart
  refine ⟨?_, ?_, ?_, ?_, ?_⟩
  · dsimp only
    rw [Function.update_self]
    intro other inside
    obtain ⟨mask, watched, within⟩ := known other (List.mem_cons_of_mem _ inside)
    exact ⟨mask, by rw [← watched]; exact congrArg (·.interest other.fd) (congrFun pollers loop),
      within⟩
  · dsimp only
    rw [Function.update_self]
    exact apart.2
  · dsimp only
    rw [Function.update_self, handlers]
    intro other inside entry left same
    obtain ⟨handler, -, rfl⟩ := List.mem_map.mp left
    have again : other.conn ∈ rest.map ActiveChannel.conn := List.mem_map_of_mem inside
    rw [← same] at again
    exact apart.1 again
  · intro elsewhere
    dsimp only
    rw [queues]
    exact lined.between elsewhere
  · exact fun elsewhere => absurd turn elsewhere

/-- A loop that is at `poll` or in `doPendingFunctors`. -/
theorem lined_of_unused (unused : after.active loop = [] ∧ after.server.handlers loop = [])
    (between : after.turn loop ≠ .pending → (after.server.queues loop).Between) :
    after.Lined loop := by
  refine ⟨?_, ?_, ?_, between, fun _ => unused⟩
  · rw [unused.1]
    exact List.forall_mem_nil _
  · rw [unused.1]
    exact List.nodup_nil
  · rw [unused.1]
    exact List.forall_mem_nil _

theorem step_inv (inv : s.Inv) {event : PolledEvent threads} (taken : s.step event = .ok after) :
    after.Inv := by
  have keeps {event : ServerEvent threads} {server : TcpServer threads}
      (stepped : s.server.step event = .ok server) : server.Consistent none :=
    TcpServer.step_keeps_consistent inv.consistent stepped
  cases event with
  | poll loop reported =>
      obtain ⟨⟨turn, reports⟩, taken⟩ := guard_ok taken
      cases taken
      exact poll_inv inv turn reports
  | accept fd =>
      obtain ⟨-, taken⟩ := guard_ok taken
      obtain ⟨server, stepped, rfl⟩ := onServer_ok taken
      exact ⟨keeps stepped, lined_of_spares inv stepped (fun _ _ => rfl) (fun _ _ => rfl)
        (accept_lined inv stepped)⟩
  | handleChannel loop =>
      obtain ⟨⟨turn, free⟩, taken⟩ := guard_ok taken
      cases front : s.active loop with
      | nil =>
          rw [handleChannel, front] at taken
          cases taken
      | cons channel rest =>
          obtain ⟨server, stepped, handled, handlers, pollers, queues⟩ :=
            handleChannel_eq inv front turn free
          cases handled.symm.trans taken
          exact ⟨keeps stepped, lined_of_spares inv stepped (fun _ _ => rfl)
            (fun _ differ => Function.update_of_ne differ ..)
            (handleChannel_lined inv front turn handlers pollers queues)⟩
  | runHandler loop read writes =>
      obtain ⟨server, stepped, rfl⟩ := onServer_ok taken
      obtain ⟨handler, left, object, there, here, confined, -, handlers⟩ :=
        TcpServer.runHandler_confined inv.consistent stepped
      exact ⟨keeps stepped, lined_of_spares inv stepped (fun _ _ => rfl) (fun _ _ => rfl)
        (lined_of_confined inv server left there here confined handlers
          (TcpServer.runHandler_pushes stepped))⟩
  | retrieve loop len =>
      obtain ⟨server, stepped, rfl⟩ := onServer_ok taken
      obtain ⟨handler, left, object, there, here, confined, handlers, queues⟩ :=
        TcpServer.retrieve_confined inv.consistent stepped
      exact ⟨keeps stepped, lined_of_spares inv stepped (fun _ _ => rfl) (fun _ _ => rfl)
        (lined_of_confined inv server left there here confined (fun _ left => handlers ▸ left)
          (TcpServer.pushes_of_eq queues))⟩
  | endChannels loop =>
      obtain ⟨⟨turn, empty⟩, taken⟩ := guard_ok taken
      obtain ⟨middle, ran, rfl⟩ := (map_ok_iff _ _ _).mp taken
      obtain ⟨server, stepped, rfl⟩ := onServer_ok ran
      have idle := (guard_ok stepped).1
      have free : server.handlers = s.server.handlers := by
        obtain ⟨-, returned⟩ := guard_ok stepped
        cases returned
        rfl
      refine ⟨keeps stepped, lined_of_spares inv stepped
        (fun _ differ => Function.update_of_ne differ ..) (fun _ _ => rfl)
        (lined_of_unused ⟨empty, (congrFun free loop).trans idle.1⟩ fun elsewhere => ?_)⟩
      exact absurd (Function.update_self ..) elsewhere
  | runFunctor loop =>
      obtain ⟨turn, taken⟩ := guard_ok taken
      obtain ⟨server, stepped, rfl⟩ := onServer_ok taken
      obtain ⟨empty, free⟩ := (inv.lined loop).unused (by simp [turn])
      have handlers : server.handlers = s.server.handlers := TcpServer.runFunctor_handlers stepped
      exact ⟨keeps stepped, lined_of_spares inv stepped (fun _ _ => rfl) (fun _ _ => rfl)
        (lined_of_unused ⟨empty, (congrFun handlers loop).trans free⟩
          fun elsewhere => absurd turn elsewhere)⟩
  | endFunctors loop =>
      obtain ⟨turn, taken⟩ := guard_ok taken
      obtain ⟨middle, ran, rfl⟩ := (map_ok_iff _ _ _).mp taken
      obtain ⟨server, stepped, rfl⟩ := onServer_ok ran
      obtain ⟨empty, free⟩ := (inv.lined loop).unused (by simp [turn])
      have ended := (guard_ok stepped).1
      have finished : server.handlers = s.server.handlers ∧
          server.queues loop = (s.server.queues loop).finish := by
        obtain ⟨-, returned⟩ := guard_ok stepped
        cases returned
        exact ⟨rfl, Function.update_self ..⟩
      refine ⟨keeps stepped, lined_of_spares inv stepped
        (fun _ differ => Function.update_of_ne differ ..) (fun _ _ => rfl)
        (lined_of_unused ⟨empty, (congrFun finished.1 loop).trans free⟩ fun _ => ?_)⟩
      show (server.queues loop).Between
      rw [finished.2]
      exact ⟨ended, rfl⟩

theorem accepts_serverEvents (s : PolledServer threads) (event : PolledEvent threads) :
    ((s.serverEvents event).map TcpServer.accepts).sum = accepts event := by
  cases event with
  | handleChannel loop =>
      simp only [serverEvents]
      split <;> rfl
  | poll | accept | runHandler | retrieve | endChannels | runFunctor | endFunctors => rfl

theorem run_inv_refines {events : List (PolledEvent threads)} (inv : s.Inv)
    (reached : run step s events = .ok after) :
    after.Inv ∧ ∃ serverEvents, run TcpServer.step s.server serverEvents = .ok after.server ∧
      (serverEvents.map TcpServer.accepts).sum = (events.map accepts).sum := by
  induction events generalizing s with
  | nil =>
      cases reached
      exact ⟨inv, [], rfl, rfl⟩
  | cons event events ih =>
      obtain ⟨next, taken, rest⟩ := (run_cons_ok_iff s after event events).mp reached
      obtain ⟨kept, later, ran, same⟩ := ih (step_inv inv taken) rest
      refine ⟨kept, s.serverEvents event ++ later, ?_, ?_⟩
      · rw [run_append, step_refines inv taken]
        exact ran
      · rw [List.map_append, List.sum_append, accepts_serverEvents, same, List.map_cons,
          List.sum_cons]

/-- Polling a batch of channels and handling them in turn does nothing that the server could not
do with a report for each channel at the moment it is handled. -/
theorem polled_refines_server (config : ServerConfig) (events : List (PolledEvent threads))
    (reached : run step (create threads config) events = .ok s) :
    ∃ serverEvents, run TcpServer.step (.create threads config) serverEvents = .ok s.server ∧
      (serverEvents.map TcpServer.accepts).sum = (events.map accepts).sum :=
  (run_inv_refines (inv_create config) reached).2

/-- Two connections in one batch, of which the first is closed twice. -/
def batchOfTwo (main io : Loop 1) : List (PolledEvent 1) :=
  [.poll main [], .accept 5, .accept 6, .endChannels main, .endFunctors main, .poll io [],
    .endChannels io, .runFunctor io, .runFunctor io, .endFunctors io,
    .poll io [(5, EPOLLIN ||| EPOLLERR), (6, EPOLLIN)], .handleChannel io,
    .runHandler io (.data []) [], .runHandler io (.data []) [], .handleChannel io,
    .runHandler io (.data [1, 2]) [], .runHandler io (.error .EAGAIN) [], .endChannels io,
    .endFunctors io]

theorem polled_refines_two :
    ∃ s : PolledServer 1, run step (create 1 ⟨"Echo", ⟨(127, 0, 0, 1), 8080⟩, false⟩)
        (batchOfTwo 0 1) = .ok s ∧
      ∃ serverEvents, run TcpServer.step (.create 1 ⟨"Echo", ⟨(127, 0, 0, 1), 8080⟩, false⟩)
          serverEvents = .ok s.server ∧ (serverEvents.map TcpServer.accepts).sum = 2 := by
  obtain ⟨s, reached, -⟩ := (map_ok_iff _ _ _).mp
    (show (run step (create 1 ⟨"Echo", ⟨(127, 0, 0, 1), 8080⟩, false⟩) (batchOfTwo 0 1)).map
      (fun s => s.server.nextConnId) = .ok 3 by decide +kernel)
  exact ⟨s, reached, polled_refines_server ⟨"Echo", ⟨(127, 0, 0, 1), 8080⟩, false⟩
    (batchOfTwo 0 1) reached⟩

/-- Every channel in `activeChannels_` is that of a connection with a reference, in this loop, and
still watched for what was reported. -/
def Live (s : PolledServer threads) : Prop :=
  ∀ loop, ∀ channel ∈ s.active loop, ∃ object, s.server.objects channel.conn = some object ∧
    object.loop = loop ∧ object.conn.channel.fd = channel.fd ∧
    s.server.Referenced channel.conn object ∧
    (s.server.pollers loop).Watches channel.fd channel.revents

theorem Inv.live (inv : s.Inv) : s.Live := by
  intro loop channel inside
  have known := (inv.lined loop).known channel inside
  obtain ⟨object, there, here, fd, referenced⟩ := known.live inv.consistent
  refine ⟨object, there, here, fd, referenced, ?_⟩
  obtain ⟨mask, watched, within⟩ := known
  simp only [EPollPoller.Watches, watched]
  exact within

/-- An accept does not exhaust the `int` that numbers the connections. -/
def Counts (s : PolledServer threads) : PolledEvent threads → Prop
  | .accept _ => s.server.nextConnId < intMax
  | _ => True

theorem onServer_allowed (inv : s.Inv) {event : ServerEvent threads} {fault : Fault}
    (failed : s.onServer event = .error fault) (counts : s.server.Counts event) :
    TcpServer.Allowed fault := by
  have spec := TcpServer.step_consistent inv.consistent event counts
  unfold onServer at failed
  cases taken : s.server.step event with
  | ok server =>
      rw [taken] at failed
      cases failed
  | error other =>
      rw [taken] at failed
      cases failed
      exact spec.of_error taken

theorem guard_allowed {enabled : Prop} [Decidable enabled]
    {result : Except Fault (PolledServer threads)} {fault : Fault}
    (failed : (if enabled then result else .error .notEnabled) = .error fault)
    (rest : enabled → result = .error fault → TcpServer.Allowed fault) :
    TcpServer.Allowed fault := by
  split at failed
  · rename_i met
    exact rest met failed
  · cases failed
    exact .inl rfl

theorem map_error {result : Except Fault (PolledServer threads)}
    {next : PolledServer threads → PolledServer threads} {fault : Fault}
    (failed : result.map next = .error fault) : result = .error fault := by
  cases result with
  | ok value => cases failed
  | error other => exact failed

theorem step_allowed (inv : s.Inv) {event : PolledEvent threads} (counts : s.Counts event)
    {fault : Fault} (failed : s.step event = .error fault) : TcpServer.Allowed fault := by
  cases event with
  | poll loop reported =>
      refine guard_allowed failed fun _ failed => ?_
      cases failed
  | accept fd => exact guard_allowed failed fun _ failed => onServer_allowed inv failed counts
  | handleChannel loop =>
      refine guard_allowed failed fun enabled failed => ?_
      cases front : s.active loop with
      | nil =>
          rw [handleChannel, front] at failed
          cases failed
          exact .inl rfl
      | cons channel rest =>
          obtain ⟨server, -, handled, -⟩ := handleChannel_eq inv front enabled.1 enabled.2
          cases handled.symm.trans failed
  | runHandler loop read writes => exact onServer_allowed inv failed trivial
  | retrieve loop len => exact onServer_allowed inv failed trivial
  | endChannels loop =>
      exact guard_allowed failed fun _ failed => onServer_allowed inv (map_error failed) trivial
  | runFunctor loop =>
      exact guard_allowed failed fun _ failed => onServer_allowed inv failed trivial
  | endFunctors loop =>
      exact guard_allowed failed fun _ failed => onServer_allowed inv (map_error failed) trivial

theorem step_nextConnId (inv : s.Inv) {event : PolledEvent threads}
    (taken : s.step event = .ok after) :
    after.server.nextConnId = s.server.nextConnId + accepts event := by
  have ran := step_refines inv taken
  rw [← accepts_serverEvents s event]
  exact TcpServer.run_nextConnId ran

theorem guarded_counts {events : List (PolledEvent threads)} (inv : s.Inv)
    (few : s.server.nextConnId + (events.map accepts).sum ≤ intMax) :
    Guarded step Counts s events := by
  induction events generalizing s with
  | nil => trivial
  | cons event events ih =>
      rw [List.map_cons, List.sum_cons] at few
      refine ⟨?_, ?_⟩
      · cases event <;> simp only [Counts, accepts] at few ⊢
        omega
      · cases taken : s.step event with
        | ok next =>
            apply ih (step_inv inv taken)
            rw [step_nextConnId inv taken]
            omega
        | error fault => trivial

/-- In every run of the polling loops with fewer accepts than the numbers of an `int`, no channel
in a batch dangles or is handled for a descriptor that has changed hands, and the connection table
agrees with the pollers. -/
theorem batches_live (config : ServerConfig) (events : List (PolledEvent threads))
    (few : (events.map accepts).sum < 2 ^ 31 - 1) :
    Always step (fun s => s.Live ∧ s.server.Agreement) TcpServer.Allowed (create threads config)
      events := by
  have inv : (create threads config).Inv := inv_create config
  refine always_of_guarded Inv (fun s inv => ⟨inv.live, inv.consistent.agreement⟩)
    (fun s event inv counts => ?_) inv (guarded_counts inv ?_)
  · cases taken : s.step event with
    | ok after => exact step_inv inv taken
    | error fault => exact step_allowed inv counts taken
  · show 1 + (events.map accepts).sum ≤ intMax
    unfold intMax
    omega

theorem batches_live_two :
    Always step (fun s => s.Live ∧ s.server.Agreement) TcpServer.Allowed
      (create 1 ⟨"Echo", ⟨(127, 0, 0, 1), 8080⟩, false⟩) (batchOfTwo 0 1) :=
  batches_live ⟨"Echo", ⟨(127, 0, 0, 1), 8080⟩, false⟩ (batchOfTwo 0 1) (by decide)

end PolledServer

end KamaWebserver
