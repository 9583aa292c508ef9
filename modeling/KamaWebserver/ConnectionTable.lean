import KamaWebserver.ConnectionStage

set_option autoImplicit false

namespace KamaWebserver

open Outcome Transition

namespace TcpServer

variable {threads : Nat} {s : TcpServer threads} {running later : Option ServerFunctor}
  {conn : Nat} {object : ServerConn threads}

/-- A function of the connection has run and left `c`. -/
def put (s : TcpServer threads) (conn : Nat) (object : ServerConn threads) (c : TcpConnection) :
    TcpServer threads :=
  { s with
    pollers := Function.update s.pollers object.loop c.poller
    objects := Function.update s.objects conn (some { object with conn := c }) }

theorem onConnection_eq {β : Type} (there : s.objects conn = some object)
    {body : TcpConnection → Except Fault (TcpConnection × β)} {c : TcpConnection} {result : β}
    (ran : body { object.conn with poller := s.pollers object.loop } = .ok (c, result)) :
    s.onConnection conn body = .ok (s.put conn object c, result) := by
  simp only [onConnection, there, ran]
  rfl

theorem onConnection_map_eq (body : TcpConnection → Except Fault TcpConnection)
    (there : s.objects conn = some object) {c : TcpConnection}
    (ran : body { object.conn with poller := s.pollers object.loop } = .ok c) :
    s.onConnection conn (fun c => (body c).map (·, ())) = .ok (s.put conn object c, ()) := by
  apply onConnection_eq there
  rw [ran]
  rfl

theorem put_objects_self (c : TcpConnection) :
    (s.put conn object c).objects conn = some { object with conn := c } :=
  Function.update_self ..

theorem put_objects_of_ne {other : Nat} (differ : other ≠ conn) (c : TcpConnection) :
    (s.put conn object c).objects other = s.objects other :=
  Function.update_of_ne differ ..

theorem put_cases {other : Nat} {entry : ServerConn threads} {c : TcpConnection}
    (found : (s.put conn object c).objects other = some entry) :
    (other = conn ∧ entry = { object with conn := c }) ∨
      (other ≠ conn ∧ s.objects other = some entry) := by
  by_cases same : other = conn
  · subst same
    exact .inl ⟨rfl, Option.some.inj (found.symm.trans (put_objects_self c))⟩
  · exact .inr ⟨same, (put_objects_of_ne same c).symm.trans found⟩

theorem put_exists {other : Nat} {entry : ServerConn threads} {c : TcpConnection}
    (there : s.objects conn = some object) (found : s.objects other = some entry) :
    ∃ entry', (s.put conn object c).objects other = some entry' ∧ entry'.name = entry.name ∧
      entry'.loop = entry.loop := by
  by_cases same : other = conn
  · subst same
    cases there.symm.trans found
    exact ⟨_, put_objects_self c, rfl, rfl⟩
  · exact ⟨entry, (put_objects_of_ne same c).trans found, rfl, rfl⟩

/-- A functor in hand counts for its own connection only. -/
theorem outstanding_congr {other : Nat} {entry : ServerConn threads} (differ : other ≠ conn)
    (before : ∀ functor, running = some functor → functor.conn = conn)
    (after : ∀ functor, later = some functor → functor.conn = conn)
    (functor : ServerFunctor) (owner : functor.conn = other) :
    s.outstanding later entry functor = s.outstanding running entry functor := by
  have absent : ∀ hand : Option ServerFunctor,
      (∀ functor, hand = some functor → functor.conn = conn) → hand.toList.count functor = 0 := by
    intro hand own
    rw [List.count_eq_zero, Option.mem_toList]
    exact fun inside => differ (owner.symm.trans (own functor inside))
  rw [outstanding, outstanding, absent running before, absent later after]

theorem held_congr {other : Nat} {entry : ServerConn threads} (differ : other ≠ conn)
    (after : ∀ functor, later = some functor → functor.conn = conn)
    (held : s.Held later other entry) : s.Held running other entry := by
  rcases held with referenced | ⟨functor, inside, owner⟩
  · exact .inl referenced
  · exact absurd (owner.symm.trans (after functor inside)) differ

section Put

variable {c : TcpConnection} (consistent : s.Consistent running)
  (there : s.objects conn = some object) (held : s.Held running conn object)
  (serves : TcpConnection.Serves { object.conn with poller := s.pollers object.loop } c)
include consistent there held serves

theorem put_apart (after : ∀ functor, later = some functor → functor.conn = conn)
    {one two : Nat} {first second : ServerConn threads}
    (foundOne : (s.put conn object c).objects one = some first)
    (foundTwo : (s.put conn object c).objects two = some second)
    (heldOne : (s.put conn object c).Held later one first)
    (heldTwo : (s.put conn object c).Held later two second)
    (sameFd : first.conn.channel.fd = second.conn.channel.fd) : one = two := by
  have earlier : ∀ {other entry}, (s.put conn object c).objects other = some entry →
      (s.put conn object c).Held later other entry → ∃ old, s.objects other = some old ∧
        s.Held running other old ∧ old.conn.channel.fd = entry.conn.channel.fd := by
    intro other entry found inside
    rcases put_cases found with ⟨rfl, rfl⟩ | ⟨differ, old⟩
    · exact ⟨object, there, held, serves.fd.symm⟩
    · exact ⟨entry, old, held_congr differ after inside, rfl⟩
  obtain ⟨old, oldOne, heldOne, fdOne⟩ := earlier foundOne heldOne
  obtain ⟨old', oldTwo, heldTwo, fdTwo⟩ := earlier foundTwo heldTwo
  exact consistent.apart one two old old' oldOne oldTwo heldOne heldTwo
    (fdOne.trans (sameFd.trans fdTwo.symm))

theorem put_registered (after : ∀ functor, later = some functor → functor.conn = conn)
    {other : Nat} {entry : ServerConn threads}
    (found : (s.put conn object c).objects other = some entry)
    (heldAfter : (s.put conn object c).Held later other entry) :
    ((s.put conn object c).pollers entry.loop).Registered entry.conn.channel := by
  rcases put_cases found with ⟨rfl, rfl⟩ | ⟨differ, old⟩
  · simpa only [TcpServer.put, Function.update_self] using serves.ready.registered
  · have heldOld : s.Held running other entry := held_congr differ after heldAfter
    have registered := consistent.registered other entry old heldOld
    by_cases loop : entry.loop = object.loop
    · have fd : entry.conn.channel.fd ≠ object.conn.channel.fd := fun same =>
        differ (consistent.apart other conn entry object old there heldOld held same)
      simp only [TcpServer.put, loop, Function.update_self]
      rw [loop] at registered
      exact ⟨(serves.onlyAt.channels _ fd).trans registered.channels,
        (serves.onlyAt.interest _ fd).trans registered.interest⟩
    · simpa only [TcpServer.put, Function.update_of_ne loop] using registered

omit held in
theorem put_vacant (loop : Loop threads) (fd : Nat)
    (unused : ∀ other entry, (s.put conn object c).objects other = some entry →
      entry.loop = loop → entry.conn.channel.fd = fd → entry.conn.channel.index = .kNew) :
    ((s.put conn object c).pollers loop).channels fd = none ∧
      ((s.put conn object c).pollers loop).interest fd = none := by
  by_cases here : loop = object.loop ∧ fd = object.conn.channel.fd
  · obtain ⟨rfl, rfl⟩ := here
    have new : c.channel.index = .kNew := unused conn _ (put_objects_self c) rfl serves.fd
    have registered := serves.ready.registered
    simp only [TcpServer.put, Function.update_self]
    constructor
    · simpa [serves.fd, new] using registered.channels
    · simpa [serves.fd, new] using registered.interest
  · have old := consistent.vacant loop fd (fun other entry found sameLoop sameFd => by
      by_cases same : other = conn
      · subst same
        cases there.symm.trans found
        exact absurd ⟨sameLoop.symm, sameFd.symm⟩ here
      · exact unused other entry ((put_objects_of_ne same c).trans found) sameLoop sameFd)
    by_cases sameLoop : loop = object.loop
    · have fdDiffer : fd ≠ object.conn.channel.fd := fun sameFd => here ⟨sameLoop, sameFd⟩
      simp only [TcpServer.put, sameLoop, Function.update_self]
      rw [sameLoop] at old
      exact ⟨(serves.onlyAt.channels fd fdDiffer).trans old.1,
        (serves.onlyAt.interest fd fdDiffer).trans old.2⟩
    · simpa only [TcpServer.put, Function.update_of_ne sameLoop] using old

/-- A function of a connection that something holds keeps everything, if it leaves the
connection in a proper stage. -/
theorem put_consistent (before : ∀ functor, running = some functor → functor.conn = conn)
    (after : ∀ functor, later = some functor → functor.conn = conn)
    (stage : Stage conn c (s.connections object.name = some conn) (s.outstanding later object))
    (handled : c.channel.index ≠ .kNew ∨ s.handlers object.loop = []) :
    (s.put conn object c).Consistent later := by
  refine ⟨consistent.short, consistent.below, ?_, ?_, ?_, ?_, ?_, ?_,
    fun _ _ _ _ => put_apart consistent there held serves after,
    fun _ _ => put_registered consistent there held serves after,
    put_vacant consistent there serves, consistent.ledger⟩
  · intro other entry found
    rcases put_cases found with ⟨rfl, rfl⟩ | ⟨differ, old⟩
    · have known := consistent.known other object there
      exact ⟨known.numbered, known.named, serves.self.trans known.self, serves.ready.writing,
        serves.ready.input, serves.ready.output⟩
    · have known := consistent.known other entry old
      exact ⟨known.numbered, known.named, known.self, known.writing, known.input, known.output⟩
  · intro name other tabled
    obtain ⟨entry, old, named⟩ := consistent.filed name other tabled
    obtain ⟨entry', found, sameName, -⟩ := put_exists there old
    exact ⟨entry', found, sameName.trans named⟩
  · intro loop functor inside
    obtain ⟨entry, old, here⟩ := consistent.placed loop functor inside
    obtain ⟨entry', found, -, sameLoop⟩ := put_exists there old
    refine ⟨entry', found, here.trans ?_⟩
    cases functor <;> simp [place, sameLoop]
  · intro functor inHand
    rw [after functor inHand]
    exact ⟨_, put_objects_self c⟩
  · intro loop entry inside
    obtain ⟨found, old, sameLoop, index⟩ := consistent.handled loop entry inside
    by_cases same : entry.1 = conn
    · rw [same] at old ⊢
      cases there.symm.trans old
      refine ⟨_, put_objects_self c, sameLoop, handled.resolve_right (fun none => ?_)⟩
      have waiting : entry ∈ s.handlers object.loop := sameLoop ▸ inside
      rw [none] at waiting
      exact List.not_mem_nil waiting
    · exact ⟨found, (put_objects_of_ne same c).trans old, sameLoop, index⟩
  · intro other entry found
    rcases put_cases found with ⟨rfl, rfl⟩ | ⟨differ, old⟩
    · exact stage
    · exact (consistent.stage other entry old).congr rfl rfl rfl Iff.rfl
        (outstanding_congr differ before after)

end Put

theorem outstanding_self (s : TcpServer threads) (object : ServerConn threads)
    (functor : ServerFunctor) :
    s.outstanding (some functor) object functor = s.outstanding none object functor + 1 := by
  simp [outstanding]

theorem outstanding_of_ne {functor other : ServerFunctor} (differ : functor ≠ other) :
    s.outstanding (some functor) object other = s.outstanding none object other := by
  simp [outstanding, differ]

/-- The step changes neither the connections nor the pollers. -/
structure Shares (s after : TcpServer threads) : Prop where
  name : after.name = s.name
  ipPort : after.ipPort = s.ipPort
  nextConnId : after.nextConnId = s.nextConnId
  objects : after.objects = s.objects
  pollers : after.pollers = s.pollers

theorem Consistent.shares {after : TcpServer threads} (consistent : s.Consistent running)
    (shares : s.Shares after)
    (filed : ∀ name conn, after.connections name = some conn → s.connections name = some conn)
    (placed : ∀ loop, ∀ functor ∈ (after.queues loop).content, ∃ object,
      s.objects functor.conn = some object ∧ loop = place object functor)
    (called : ∀ functor, later = some functor → ∃ object, s.objects functor.conn = some object)
    (handled : ∀ loop, ∀ entry ∈ after.handlers loop, ∃ object, s.objects entry.1 = some object ∧
      object.loop = loop ∧ object.conn.channel.index ≠ .kNew)
    (stage : ∀ conn object, s.objects conn = some object → Stage conn object.conn
      (after.connections object.name = some conn) (after.outstanding later object))
    (held : ∀ conn object, s.objects conn = some object → after.Held later conn object →
      s.Held running conn object)
    (ledger : ∀ effect ∈ after.trace, effect.Own) : after.Consistent later := by
  refine ⟨shares.ipPort ▸ consistent.short, shares.nextConnId ▸ consistent.below, ?_, ?_, ?_, ?_,
    ?_, ?_, ?_, ?_, ?_, ledger⟩
  · intro conn object there
    have known := consistent.known conn object (shares.objects ▸ there)
    exact ⟨shares.nextConnId ▸ known.numbered, shares.name ▸ shares.ipPort ▸ known.named,
      known.self, known.writing, known.input, known.output⟩
  · rw [shares.objects]
    exact fun name conn tabled => consistent.filed name conn (filed name conn tabled)
  · rw [shares.objects]
    exact placed
  · rw [shares.objects]
    exact called
  · rw [shares.objects]
    exact handled
  · rw [shares.objects]
    exact stage
  · rw [shares.objects]
    intro one two first second foundOne foundTwo heldOne heldTwo
    exact consistent.apart one two first second foundOne foundTwo
      (held one first foundOne heldOne) (held two second foundTwo heldTwo)
  · rw [shares.objects, shares.pollers]
    exact fun conn object there inside =>
      consistent.registered conn object there (held conn object there inside)
  · rw [shares.objects, shares.pollers]
    exact consistent.vacant

theorem queueInLoop_content (loop : Loop threads) (functor : ServerFunctor) {other : Loop threads}
    {inside : ServerFunctor}
    (found : inside ∈ ((s.queueInLoop loop functor).queues other).content) :
    inside ∈ (s.queues other).content ∨ (other = loop ∧ inside = functor) := by
  by_cases same : other = loop
  · subst same
    simp only [queueInLoop, Function.update_self, BatchQueue.push_content, List.mem_append,
      List.mem_singleton] at found
    exact found.imp_right fun same => ⟨rfl, same⟩
  · simp only [queueInLoop, Function.update_of_ne same] at found
    exact .inl found

/-- A functor that is queued is still to be run. -/
theorem outstanding_queueInLoop (functor other : ServerFunctor)
    (owner : functor.conn = other.conn) :
    (s.queueInLoop (place object functor) functor).outstanding none object other =
      s.outstanding (some functor) object other := by
  by_cases same : functor = other
  · subst same
    simp [outstanding, queueInLoop, BatchQueue.push_waiting]
  · rw [outstanding_of_ne same]
    by_cases loop : place object other = place object functor
    · simp [outstanding, queueInLoop, loop, BatchQueue.push_waiting, same]
    · simp [outstanding, queueInLoop, Function.update_of_ne loop]

theorem queueInLoop_waiting_of_ne (loop : Loop threads) {functor other : ServerFunctor}
    (differ : functor ≠ other) (here : Loop threads) :
    ((s.queueInLoop loop functor).queues here).waiting.count other =
      (s.queues here).waiting.count other := by
  by_cases same : here = loop
  · subst same
    simp [queueInLoop, BatchQueue.push_waiting, differ]
  · simp [queueInLoop, Function.update_of_ne same]

/-- The functor goes to the queue of the loop it belongs to. -/
theorem queueInLoop_consistent {functor : ServerFunctor}
    (consistent : s.Consistent (some functor))
    (there : s.objects functor.conn = some object) :
    (s.queueInLoop (place object functor) functor).Consistent none := by
  refine consistent.shares ⟨rfl, rfl, rfl, rfl, rfl⟩ (fun _ _ tabled => tabled) ?_ nofun
    consistent.handled ?_ ?_ consistent.ledger
  · intro loop inside found
    rcases queueInLoop_content _ _ found with older | ⟨rfl, rfl⟩
    · exact consistent.placed loop inside older
    · exact ⟨object, there, rfl⟩
  · intro other entry found
    refine (consistent.stage other entry found).congr rfl rfl rfl Iff.rfl (fun inside owner => ?_)
    by_cases same : functor.conn = other
    · subst same
      cases there.symm.trans found
      exact outstanding_queueInLoop functor inside owner.symm
    · have differ : functor ≠ inside := fun equal => same (equal ▸ owner)
      rw [outstanding_of_ne differ, outstanding, outstanding, queueInLoop_waiting_of_ne _ differ]
  · intro other entry found held
    rcases held with (tabled | ⟨loop, inside, stored, owner⟩) | ⟨inside, none, _⟩
    · exact .inl (.inl tabled)
    · rcases queueInLoop_content _ _ stored with older | ⟨_, rfl⟩
      · exact .inl (.inr ⟨loop, inside, older, owner⟩)
      · exact .inr ⟨inside, rfl, owner⟩
    · cases none

theorem call_connectEstablished
    (consistent : s.Consistent (some (.connectEstablished conn))) :
    ∃ after, s.call (.connectEstablished conn) = .ok after ∧ after.Consistent none := by
  obtain ⟨object, there⟩ : ∃ object, s.objects conn = some object := consistent.called _ rfl
  have held : s.Held (some (.connectEstablished conn)) conn object := .inr ⟨_, rfl, rfl⟩
  have counted := outstanding_self s object (.connectEstablished conn)
  cases consistent.stage conn object there with
  | fresh index opened tabled establishing removing destroying =>
      obtain ⟨c, ran, serves, added, callbacks⟩ :=
        TcpConnection.connectEstablished_serves (consistent.ready there held) index
      have kept : (s.put conn object c).Consistent none := by
        refine put_consistent consistent there held serves (by simp [ServerFunctor.conn]) nofun
          (.up added (callbacks.trans opened) tabled (by omega) ?_ ?_) (.inl (by simp [added]))
        · rwa [outstanding_of_ne (by simp)] at removing
        · rwa [outstanding_of_ne (by simp)] at destroying
      refine ⟨_, ?_, kept⟩
      simp only [call, onConnection_map_eq TcpConnection.connectEstablished there ran]
      rfl
  | up _ _ _ establishing _ _ => omega
  | down _ _ establishing _ _ => omega

/-- The functor only runs outside the handling of channels, so no callback waits. -/
theorem call_connectDestroyed (consistent : s.Consistent (some (.connectDestroyed conn)))
    (idle : ∀ object, s.objects conn = some object → s.handlers object.loop = []) :
    ∃ after, s.call (.connectDestroyed conn) = .ok after ∧ after.Consistent none := by
  obtain ⟨object, there⟩ : ∃ object, s.objects conn = some object := consistent.called _ rfl
  have held : s.Held (some (.connectDestroyed conn)) conn object := .inr ⟨_, rfl, rfl⟩
  have counted := outstanding_self s object (.connectDestroyed conn)
  cases consistent.stage conn object there with
  | fresh _ _ _ _ _ destroying => omega
  | up _ _ _ _ _ destroying => omega
  | down state closed establishing removing destroying =>
      obtain ⟨c, ran, serves, down, new, callbacks⟩ :=
        TcpConnection.connectDestroyed_serves (consistent.ready there held) state
      rw [outstanding_of_ne (by simp)] at establishing removing
      have kept : (s.put conn object c).Consistent none :=
        put_consistent consistent there held serves (by simp [ServerFunctor.conn]) nofun
          (.down down (callbacks ▸ closed) establishing removing (fun index => absurd new index))
          (.inr (idle object there))
      refine ⟨_, ?_, kept⟩
      simp only [call, onConnection_map_eq TcpConnection.connectDestroyed there ran]
      rfl

/-- Names are unique, so an entry under a connection's name is its own. -/
theorem Consistent.own_entry (consistent : s.Consistent running)
    (there : s.objects conn = some object) {other : Nat}
    (tabled : s.connections object.name = some other) : other = conn := by
  obtain ⟨entry, found, named⟩ := consistent.filed object.name other tabled
  have known := consistent.known conn object there
  have knownOther := consistent.known other entry found
  have below := consistent.below
  refine connName_injective consistent.short s.name
    (Nat.lt_of_lt_of_le knownOther.numbered below) (Nat.lt_of_lt_of_le known.numbered below) ?_
  rw [← knownOther.named, ← known.named, named]

/-- The state in which `removeConnectionInLoop` queues `connectDestroyed`. -/
def erased (s : TcpServer threads) (conn : Nat) (object : ServerConn threads) :
    TcpServer threads :=
  { s.emit (.erase conn (s.connections object.name)) with
    connections := Function.update s.connections object.name none }

/-- What the table still holds it held before, under another name. -/
theorem erased_connections (conn : Nat) {name : String} {other : Nat}
    (tabled : (s.erased conn object).connections name = some other) :
    name ≠ object.name ∧ s.connections name = some other := by
  by_cases same : name = object.name
  · simp [erased, same] at tabled
  · exact ⟨same, (Function.update_of_ne same ..).symm.trans tabled⟩

/-- The connection waits for `connectDestroyed`, the others are where they were. -/
theorem erased_stage (consistent : s.Consistent (some (.removeConnectionInLoop conn)))
    (there : s.objects conn = some object) {other : Nat} {entry : ServerConn threads}
    (found : s.objects other = some entry) :
    Stage other entry.conn ((s.erased conn object).connections entry.name = some other)
      (((s.erased conn object).queueInLoop object.loop (.connectDestroyed conn)).outstanding none
        entry) := by
  have counted := outstanding_self s object (.removeConnectionInLoop conn)
  by_cases same : other = conn
  · subst same
    cases there.symm.trans found
    cases consistent.stage other object there with
    | fresh _ _ _ _ removing _ => omega
    | up _ _ _ _ removing _ => omega
    | down state closed establishing _ _ =>
        refine .down state closed ?_ (fun tabled => absurd rfl (erased_connections _ tabled).1)
          (fun _ => ?_)
        · rw [outstanding_of_ne (by simp)] at establishing
          rw [outstanding, queueInLoop_waiting_of_ne _ (by simp)]
          exact establishing
        · refine Nat.lt_of_lt_of_le (Nat.zero_lt_one) (Nat.le_add_left_of_le ?_)
          simp [outstanding, queueInLoop, place, BatchQueue.push_waiting]
  · have differ : ∀ functor : ServerFunctor, functor.conn = conn →
        ∀ inside : ServerFunctor, inside.conn = other → functor ≠ inside :=
      fun functor mine inside owner equal => same (owner.symm.trans (equal ▸ mine))
    refine (consistent.stage other entry found).congr rfl rfl rfl
      ⟨fun tabled => (erased_connections conn tabled).2, fun tabled => ?_⟩ (fun inside owner => ?_)
    · have sameName : entry.name ≠ object.name :=
        fun sameName => same (consistent.own_entry there (sameName ▸ tabled))
      exact (Function.update_of_ne sameName ..).trans tabled
    · rw [outstanding_of_ne (differ _ rfl inside owner), outstanding, outstanding,
        queueInLoop_waiting_of_ne _ (differ _ rfl inside owner)]
      rfl

theorem call_removeConnectionInLoop
    (consistent : s.Consistent (some (.removeConnectionInLoop conn))) :
    ∃ after, s.call (.removeConnectionInLoop conn) = .ok after ∧ after.Consistent none := by
  obtain ⟨object, there⟩ : ∃ object, s.objects conn = some object := consistent.called _ rfl
  refine ⟨(s.erased conn object).queueInLoop object.loop (.connectDestroyed conn),
    by simp only [call, removeConnectionInLoop, there]; rfl, ?_⟩
  refine consistent.shares ⟨rfl, rfl, rfl, rfl, rfl⟩ ?_ ?_ nofun consistent.handled ?_ ?_ ?_
  · exact fun name other tabled => (erased_connections conn tabled).2
  · intro loop functor found
    rcases queueInLoop_content _ _ found with older | ⟨rfl, rfl⟩
    · exact consistent.placed loop functor older
    · exact ⟨object, there, rfl⟩
  · exact fun other entry found => erased_stage consistent there found
  · intro other entry found held
    rcases held with (tabled | ⟨loop, inside, stored, owner⟩) | ⟨inside, none, _⟩
    · exact .inl (.inl (erased_connections conn tabled).2)
    · rcases queueInLoop_content _ _ stored with older | ⟨_, rfl⟩
      · exact .inl (.inr ⟨loop, inside, older, owner⟩)
      · exact .inr ⟨_, rfl, owner⟩
    · cases none
  · intro effect inside
    rcases List.mem_cons.mp inside with rfl | older
    · cases entry : s.connections object.name with
      | none => exact .inl rfl
      | some other => exact .inr (congrArg some (consistent.own_entry there entry))
    · exact consistent.ledger effect older

theorem call_consistent (functor : ServerFunctor) (consistent : s.Consistent (some functor))
    (idle : ∀ object, functor = .connectDestroyed functor.conn →
      s.objects functor.conn = some object → s.handlers object.loop = []) :
    ∃ after, s.call functor = .ok after ∧ after.Consistent none := by
  cases functor with
  | connectEstablished conn => exact call_connectEstablished consistent
  | connectDestroyed conn => exact call_connectDestroyed consistent (fun object => idle object rfl)
  | removeConnectionInLoop conn => exact call_removeConnectionInLoop consistent

theorem runInLoop_consistent {functor : ServerFunctor} (consistent : s.Consistent (some functor))
    (there : s.objects functor.conn = some object)
    (other : functor ≠ .connectDestroyed functor.conn) (caller : Loop threads) :
    ∃ after, s.runInLoop caller (place object functor) functor = .ok after ∧
      after.Consistent none := by
  unfold runInLoop
  split
  · exact call_consistent functor consistent (fun _ same => absurd same other)
  · exact ⟨_, rfl, queueInLoop_consistent consistent there⟩

/-- A functor that has come to run is in the storage of its batch. -/
theorem next_consistent (consistent : s.Consistent none) {loop : Loop threads}
    {functor : ServerFunctor} {queue : BatchQueue ServerFunctor}
    (taken : (s.queues loop).next = some (functor, queue)) :
    Consistent (some functor) { s with queues := Function.update s.queues loop queue } := by
  have first : (s.queues loop).waiting = functor :: queue.waiting := BatchQueue.next_waiting taken
  have stored : functor ∈ (s.queues loop).content :=
    BatchQueue.mem_content_of_waiting (first ▸ List.mem_cons_self)
  obtain ⟨object, there, here⟩ := consistent.placed loop functor stored
  have contents : ∀ other, (Function.update s.queues loop queue other).content =
      (s.queues other).content := by
    intro other
    by_cases same : other = loop
    · subst same
      rw [Function.update_self, BatchQueue.next_content taken]
    · rw [Function.update_of_ne same]
  refine consistent.shares ⟨rfl, rfl, rfl, rfl, rfl⟩ (fun _ _ tabled => tabled) ?_ ?_
    consistent.handled ?_ ?_ consistent.ledger
  · intro other inside found
    exact consistent.placed other inside (contents other ▸ found)
  · rintro inside ⟨⟩
    exact ⟨object, there⟩
  · intro other entry found
    refine (consistent.stage other entry found).congr rfl rfl rfl Iff.rfl (fun inside owner => ?_)
    by_cases same : functor = inside
    · subst same
      obtain rfl : object = entry :=
        Option.some.inj (there.symm.trans ((congrArg s.objects owner).trans found))
      subst here
      simp [outstanding, first]
    · rw [outstanding_of_ne same]
      by_cases loopSame : place entry inside = loop
      · simp [outstanding, loopSame, first, same]
      · simp [outstanding, Function.update_of_ne loopSame]
  · intro other entry found held
    rcases held with (tabled | ⟨here, inside, stored, owner⟩) | ⟨inside, same, owner⟩
    · exact .inl (.inl tabled)
    · exact .inl (.inr ⟨here, inside, contents here ▸ stored, owner⟩)
    · cases same
      exact .inl (.inr ⟨loop, functor, stored, owner⟩)

theorem runFunctor_consistent (consistent : s.Consistent none) {loop : Loop threads}
    (idle : s.handlers loop = []) :
    Spec (· = Fault.notEnabled) (Consistent none) (s.runFunctor loop) := by
  unfold runFunctor
  split
  case h_1 _ => rfl
  case h_2 functor queue taken =>
    have stored : functor ∈ (s.queues loop).content := BatchQueue.mem_content_of_waiting
      (BatchQueue.next_waiting taken ▸ List.mem_cons_self)
    obtain ⟨object, there, here⟩ := consistent.placed loop functor stored
    obtain ⟨after, ran, kept⟩ := call_consistent functor (next_consistent consistent taken)
      (fun entry destroys found => by
        obtain rfl : object = entry := Option.some.inj (there.symm.trans found)
        rw [destroys] at here
        exact here ▸ idle)
    rw [ran]
    exact kept

/-- The batch is exchanged or destroyed. What waits stays, and no more is stored. -/
theorem setQueue_consistent (consistent : s.Consistent none) {loop : Loop threads}
    {queue : BatchQueue ServerFunctor} (waits : queue.waiting = (s.queues loop).waiting)
    (stores : ∀ functor ∈ queue.content, functor ∈ (s.queues loop).content) :
    Consistent none { s with queues := Function.update s.queues loop queue } := by
  have contents : ∀ other, ∀ functor ∈ (Function.update s.queues loop queue other).content,
      functor ∈ (s.queues other).content := by
    intro other functor found
    by_cases same : other = loop
    · subst same
      rw [Function.update_self] at found
      exact stores functor found
    · rwa [Function.update_of_ne same] at found
  refine consistent.shares ⟨rfl, rfl, rfl, rfl, rfl⟩ (fun _ _ tabled => tabled) ?_ nofun
    consistent.handled ?_ ?_ consistent.ledger
  · exact fun other functor found => consistent.placed other functor (contents other functor found)
  · intro conn object there
    refine (consistent.stage conn object there).congr rfl rfl rfl Iff.rfl (fun functor _ => ?_)
    by_cases same : place object functor = loop
    · simp [outstanding, same, waits]
    · simp [outstanding, Function.update_of_ne same]
  · intro conn object there held
    rcases held with (tabled | ⟨here, functor, stored, owner⟩) | ⟨functor, none, _⟩
    · exact .inl (.inl tabled)
    · exact .inl (.inr ⟨here, functor, contents here functor stored, owner⟩)
    · cases none

/-- The callbacks left for a loop belong to channels it watches. -/
theorem setHandlers_consistent (consistent : s.Consistent running) {loop : Loop threads}
    {handlers : List (Nat × Handler)}
    (handled : ∀ entry ∈ handlers, ∃ object, s.objects entry.1 = some object ∧
      object.loop = loop ∧ object.conn.channel.index ≠ .kNew) :
    Consistent running { s with handlers := Function.update s.handlers loop handlers } := by
  refine consistent.shares ⟨rfl, rfl, rfl, rfl, rfl⟩ (fun _ _ tabled => tabled) consistent.placed
    consistent.called ?_ consistent.stage (fun _ _ _ held => held) consistent.ledger
  intro other entry inside
  dsimp only at inside
  by_cases same : other = loop
  · subst same
    rw [Function.update_self] at inside
    exact handled entry inside
  · rw [Function.update_of_ne same] at inside
    exact consistent.handled other entry inside

theorem closes_eq (there : s.objects conn = some object) :
    s.closes conn = object.conn.closeCallbacks := by
  simp only [closes, there]
  rfl

theorem put_stays (consistent : s.Consistent none) (there : s.objects conn = some object)
    (index : object.conn.channel.index ≠ .kNew) {c : TcpConnection}
    (stays : TcpConnection.Stays { object.conn with poller := s.pollers object.loop } c) :
    (s.put conn object c).Consistent none :=
  put_consistent consistent there (consistent.held_of_index there index) stays.serves nofun nofun
    ((consistent.stage conn object there).congr stays.channel stays.state stays.closeCallbacks
      Iff.rfl (fun _ _ => rfl))
    (.inl (stays.channel ▸ index))

/-- What is closed is still to be removed from the table. -/
theorem put_closes (consistent : s.Consistent none) (there : s.objects conn = some object)
    (index : object.conn.channel.index ≠ .kNew) {c : TcpConnection}
    (closed : TcpConnection.Closes { object.conn with poller := s.pollers object.loop } c) :
    (s.put conn object c).Consistent (some (.removeConnectionInLoop conn)) := by
  have removing : 0 < s.outstanding (some (.removeConnectionInLoop conn)) object
      (.removeConnectionInLoop conn) := by
    rw [outstanding_self]
    exact Nat.succ_pos _
  have established : s.outstanding none object (.connectEstablished conn) = 0 := by
    cases consistent.stage conn object there with
    | fresh new _ _ _ _ _ => exact absurd new index
    | up _ _ _ establishing _ _ => exact establishing
    | down _ _ establishing _ _ => exact establishing
  refine put_consistent consistent there (consistent.held_of_index there index) closed.serves nofun
    (by simp [ServerFunctor.conn]) (.down closed.state ?_ ?_ (fun _ => removing)
      (fun _ => Nat.add_pos_left removing _)) (.inl closed.registered)
  · rw [closed.closeCallbacks]
    exact Nat.succ_pos _
  · rwa [outstanding_of_ne (by simp)]

/-- A callback leaves its connection as it was, or closes it and has it removed. -/
theorem runHandler_consistent (consistent : s.Consistent none) (loop : Loop threads)
    (read : ReadResult) (writes : List IoResult) :
    Spec (fun fault => fault = .notEnabled ∨ Buffer.Throws fault) (Consistent none)
      (s.runHandler loop read writes) := by
  unfold runHandler
  cases waiting : s.handlers loop with
  | nil => exact .inl rfl
  | cons entry rest =>
      obtain ⟨conn, handler⟩ := entry
      obtain ⟨object, there, rfl, index⟩ :=
        consistent.handled loop (conn, handler) (waiting ▸ List.mem_cons_self)
      have outcome := TcpConnection.run_spec
        (consistent.ready there (consistent.held_of_index there index)) handler read writes
      cases ran : handler.run read writes { object.conn with poller := s.pollers object.loop } with
      | error fault =>
          have failed : s.onConnection conn (handler.run read writes) = .error fault := by
            simp only [onConnection, there, ran]
            rfl
          simp only [failed]
          exact .inr (outcome.of_error ran)
      | ok result =>
          obtain ⟨c, again⟩ := result
          have before : s.closes conn = object.conn.closeCallbacks := closes_eq there
          have after : ∀ handlers, closes { s.put conn object c with handlers } conn =
            c.closeCallbacks := fun _ => closes_eq (put_objects_self c)
          have left : ∀ {later}, (s.put conn object c).Consistent later →
              Consistent later { s.put conn object c with
                handlers := Function.update s.handlers object.loop
                  (if again then (conn, handler) :: rest else rest) } := by
            intro later kept
            refine setHandlers_consistent kept (fun entry inside => ?_)
            have earlier : entry ∈ (conn, handler) :: rest := by
              cases again with
              | true => exact inside
              | false => exact List.mem_cons_of_mem _ inside
            exact kept.handled object.loop entry
              (show entry ∈ s.handlers object.loop from waiting ▸ earlier)
          simp only [onConnection_eq there ran, bind, Except.bind, before, after]
          rcases outcome.of_ok ran with stays | closed
          · have same : c.closeCallbacks = object.conn.closeCallbacks := stays.closeCallbacks
            rw [if_pos same]
            exact left (put_stays consistent there index stays)
          · have more : c.closeCallbacks = object.conn.closeCallbacks + 1 := closed.closeCallbacks
            rw [if_neg (by omega)]
            obtain ⟨last, removed, kept⟩ := runInLoop_consistent
              (left (put_closes consistent there index closed)) (put_objects_self c) (by simp)
              object.loop
            exact (congrArg (Spec _ (Consistent none)) removed).mpr kept

theorem retrieve_consistent (consistent : s.Consistent none) (loop : Loop threads) (len : Nat) :
    Spec (· = Fault.notEnabled) (Consistent none) (s.step (.retrieve loop len)) := by
  simp only [step]
  cases waiting : s.handlers loop with
  | nil => rfl
  | cons entry rest =>
      obtain ⟨conn, handler⟩ := entry
      obtain ⟨object, there, rfl, index⟩ :=
        consistent.handled loop (conn, handler) (waiting ▸ List.mem_cons_self)
      have ready := consistent.ready there (consistent.held_of_index there index)
      have retrieved : TcpConnection.Stays { object.conn with poller := s.pollers object.loop }
          (TcpConnection.retrieveInput { object.conn with poller := s.pollers object.loop } len) :=
        ⟨⟨⟨ready.registered, ready.writing, (ready.input.retrieve len).1, ready.output⟩,
          ⟨fun _ _ => rfl, fun _ _ => rfl⟩, rfl, rfl⟩, rfl, rfl, rfl⟩
      have ran : s.onConnection conn (fun c => .ok (c.retrieveInput len, ())) =
          .ok (s.put conn object (TcpConnection.retrieveInput
            { object.conn with poller := s.pollers object.loop } len), ()) :=
        onConnection_eq there rfl
      simp only [ran]
      exact put_stays consistent there index retrieved

end TcpServer

end KamaWebserver
