import KamaWebserver.ConnectionTable

set_option autoImplicit false

namespace KamaWebserver

open Outcome Transition

namespace TcpServer

variable {threads : Nat} {s : TcpServer threads}

/-- `isOpen` says no: no connection that something holds has the descriptor. -/
theorem not_referenced_of_isOpen (consistent : s.Consistent none) {fd : Nat}
    (free : s.isOpen fd = false) {conn : Nat} {object : ServerConn threads}
    (there : s.objects conn = some object) (held : s.Held none conn object) :
    object.conn.channel.fd ≠ fd := by
  intro same
  have referenced : s.Referenced conn object := by
    rcases held with referenced | ⟨functor, none, _⟩
    · exact referenced
    · cases none
  have inside : conn ∈ List.range s.nextConnId :=
    List.mem_range.mpr (consistent.known conn object there).numbered
  have owned := List.any_eq_false.mp free conn inside
  simp [there, same, referenced] at owned

/-- The state `newConnection` leaves before it calls `runInLoop`. -/
def inserted (s : TcpServer threads) (object : ServerConn threads) (next : Nat) :
    TcpServer threads :=
  { s.emit (.insert s.nextConnId (s.connections object.name)) with
    next
    nextConnId := s.nextConnId + 1
    objects := Function.update s.objects s.nextConnId (some object)
    connections := Function.update s.connections object.name (some s.nextConnId) }

section Insert

variable {object : ServerConn threads} (consistent : s.Consistent none)
include consistent

theorem Consistent.ne_of_found {other : Nat} {entry : ServerConn threads}
    (found : s.objects other = some entry) : other ≠ s.nextConnId :=
  Nat.ne_of_lt (consistent.known other entry found).numbered

/-- No entry has the name of the next connection. -/
theorem Consistent.name_free (small : s.nextConnId < intMax) (other : Nat) :
    s.connections (connName s.name s.ipPort s.nextConnId) ≠ some other := by
  intro tabled
  obtain ⟨entry, found, sameName⟩ := consistent.filed _ other tabled
  have known := consistent.known other entry found
  refine consistent.ne_of_found found (connName_injective consistent.short s.name
    (Nat.lt_trans known.numbered small) small ?_)
  rw [← known.named, sameName]

omit consistent in
theorem inserted_cases {next other : Nat} {entry : ServerConn threads}
    (found : (s.inserted object next).objects other = some entry) :
    (other = s.nextConnId ∧ entry = object) ∨
      (other ≠ s.nextConnId ∧ s.objects other = some entry) := by
  by_cases same : other = s.nextConnId
  · subst same
    exact .inl ⟨rfl, Option.some.inj (found.symm.trans (Function.update_self ..))⟩
  · exact .inr ⟨same, (Function.update_of_ne same ..).symm.trans found⟩

theorem inserted_found {next other : Nat} {entry : ServerConn threads}
    (found : s.objects other = some entry) :
    (s.inserted object next).objects other = some entry :=
  (Function.update_of_ne (consistent.ne_of_found found) ..).trans found

theorem inserted_connections {next : Nat}
    (named : object.name = connName s.name s.ipPort s.nextConnId)
    (small : s.nextConnId < intMax) {other : Nat} {entry : ServerConn threads}
    (found : s.objects other = some entry) :
    (s.inserted object next).connections entry.name = s.connections entry.name := by
  have known := consistent.known other entry found
  have differ : entry.name ≠ object.name := fun same => consistent.ne_of_found found
    (connName_injective consistent.short s.name (Nat.lt_trans known.numbered small) small
      (known.named.symm.trans (same.trans named)))
  exact Function.update_of_ne differ ..

theorem held_of_inserted {next : Nat}
    (named : object.name = connName s.name s.ipPort s.nextConnId)
    (small : s.nextConnId < intMax) {other : Nat} {entry : ServerConn threads}
    (found : s.objects other = some entry)
    (held : (s.inserted object next).Held (some (.connectEstablished s.nextConnId)) other entry) :
    s.Held none other entry := by
  rcases held with (tabled | stored) | ⟨functor, same, owner⟩
  · rw [inserted_connections consistent named small found] at tabled
    exact .inl (.inl tabled)
  · exact .inl (.inr stored)
  · cases same
    exact absurd owner.symm (consistent.ne_of_found found)

/-- The functors in the storage are those of earlier connections. -/
theorem Consistent.conn_ne_of_stored {loop : Loop threads} {functor : ServerFunctor}
    (stored : functor ∈ (s.queues loop).content) : functor.conn ≠ s.nextConnId := by
  obtain ⟨entry, found, -⟩ := consistent.placed loop functor stored
  exact consistent.ne_of_found found

/-- The new connection waits for `connectEstablished`, the others are where they were. -/
theorem inserted_stage {next : Nat} (named : object.name = connName s.name s.ipPort s.nextConnId)
    (small : s.nextConnId < intMax) (index : object.conn.channel.index = .kNew)
    (opened : object.conn.closeCallbacks = 0) {other : Nat} {entry : ServerConn threads}
    (found : (s.inserted object next).objects other = some entry) :
    Stage other entry.conn ((s.inserted object next).connections entry.name = some other)
      ((s.inserted object next).outstanding (some (.connectEstablished s.nextConnId)) entry) := by
  have unlisted : ∀ loop functor, functor.conn = s.nextConnId →
      (s.queues loop).waiting.count functor = 0 := fun loop functor owner =>
    List.count_eq_zero.mpr fun waits =>
      consistent.conn_ne_of_stored (BatchQueue.mem_content_of_waiting waits) owner
  rcases inserted_cases found with ⟨rfl, rfl⟩ | ⟨differ, old⟩
  · refine .fresh index opened (Function.update_self ..) ?_ ?_ ?_
    · rw [outstanding_self]
      exact congrArg (· + 1) (unlisted _ _ rfl)
    · rw [outstanding_of_ne (by simp)]
      exact unlisted _ _ rfl
    · rw [outstanding_of_ne (by simp)]
      exact unlisted _ _ rfl
  · refine (consistent.stage other entry old).congr rfl rfl rfl ?_
      (outstanding_congr differ (by simp) (by simp [ServerFunctor.conn]))
    rw [inserted_connections consistent named small old]

/-- The descriptor of the new connection is in use nowhere else. -/
theorem inserted_apart {next : Nat} (named : object.name = connName s.name s.ipPort s.nextConnId)
    (small : s.nextConnId < intMax)
    (closed : ∀ {conn entry}, s.objects conn = some entry → s.Held none conn entry →
      entry.conn.channel.fd ≠ object.conn.channel.fd)
    {one two : Nat} {first second : ServerConn threads}
    (foundOne : (s.inserted object next).objects one = some first)
    (foundTwo : (s.inserted object next).objects two = some second)
    (heldOne : (s.inserted object next).Held (some (.connectEstablished s.nextConnId)) one first)
    (heldTwo : (s.inserted object next).Held (some (.connectEstablished s.nextConnId)) two second)
    (sameFd : first.conn.channel.fd = second.conn.channel.fd) : one = two := by
  rcases inserted_cases foundOne with ⟨rfl, rfl⟩ | ⟨differOne, oldOne⟩
  · rcases inserted_cases foundTwo with ⟨rfl, rfl⟩ | ⟨differTwo, oldTwo⟩
    · rfl
    · exact absurd sameFd.symm
        (closed oldTwo (held_of_inserted consistent named small oldTwo heldTwo))
  · rcases inserted_cases foundTwo with ⟨rfl, rfl⟩ | ⟨differTwo, oldTwo⟩
    · exact absurd sameFd (closed oldOne (held_of_inserted consistent named small oldOne heldOne))
    · exact consistent.apart one two first second oldOne oldTwo
        (held_of_inserted consistent named small oldOne heldOne)
        (held_of_inserted consistent named small oldTwo heldTwo) sameFd

/-- The new connection waits for `connectEstablished`. Its descriptor belongs to no other
connection, and no poller knows it. -/
theorem inserted_consistent {fd : Nat} (free : s.isOpen fd = false)
    (small : s.nextConnId < intMax) (loop : Loop threads) (writeComplete : Bool) (next : Nat) :
    (s.inserted ⟨connName s.name s.ipPort s.nextConnId, loop, TcpConnection.create s.nextConnId fd
        (64 * 1024 * 1024) writeComplete false⟩ next).Consistent
      (some (.connectEstablished s.nextConnId)) := by
  have closed : ∀ {conn object}, s.objects conn = some object → s.Held none conn object →
      object.conn.channel.fd ≠ fd := not_referenced_of_isOpen consistent free
  refine ⟨consistent.short, small, ?_, ?_, ?_, ?_, ?_, ?_, ?_, ?_, ?_, ?_⟩
  · intro other entry found
    rcases inserted_cases found with ⟨rfl, rfl⟩ | ⟨differ, old⟩
    · have silent : (Channel.create s.nextConnId fd).isWriting = false := by
        simp [Channel.isWriting, Channel.create, kNoneEvent]
      exact ⟨Nat.lt_succ_self _, rfl, rfl, silent, TcpConnection.defaultBuffer_valid,
        TcpConnection.defaultBuffer_valid⟩
    · have known := consistent.known other entry old
      exact ⟨Nat.lt_succ_of_lt known.numbered, known.named, known.self, known.writing, known.input,
        known.output⟩
  · intro name other tabled
    by_cases same : name = connName s.name s.ipPort s.nextConnId
    · subst same
      obtain rfl : s.nextConnId = other := by simpa [inserted, emit] using tabled
      exact ⟨_, Function.update_self .., rfl⟩
    · obtain ⟨entry, found, named⟩ := consistent.filed name other
        ((Function.update_of_ne same ..).symm.trans tabled)
      exact ⟨entry, inserted_found consistent found, named⟩
  · intro here functor stored
    obtain ⟨entry, found, placed⟩ := consistent.placed here functor stored
    exact ⟨entry, inserted_found consistent found, placed⟩
  · rintro functor ⟨⟩
    exact ⟨_, Function.update_self ..⟩
  · intro here entry inside
    obtain ⟨found, there, sameLoop, index⟩ := consistent.handled here entry inside
    exact ⟨found, inserted_found consistent there, sameLoop, index⟩
  · intro other entry found
    exact inserted_stage consistent rfl small rfl rfl found
  · intro one two first second foundOne foundTwo heldOne heldTwo sameFd
    exact inserted_apart consistent rfl small closed foundOne foundTwo heldOne heldTwo sameFd
  · intro other entry found held
    rcases inserted_cases found with ⟨rfl, rfl⟩ | ⟨differ, old⟩
    · obtain ⟨channels, interest⟩ := consistent.vacant loop fd (fun conn object there _ sameFd => by
        by_contra index
        exact closed there (consistent.held_of_index there index) sameFd)
      exact ⟨channels, interest⟩
    · exact consistent.registered other entry old
        (held_of_inserted consistent rfl small old held)
  · intro here fd' unused
    exact consistent.vacant here fd' (fun other entry found =>
      unused other entry (inserted_found consistent found))
  · intro effect inside
    rcases List.mem_cons.mp inside with rfl | older
    · exact Option.eq_none_iff_forall_ne_some.mpr (consistent.name_free small)
    · exact consistent.ledger effect older

end Insert

theorem newConnection_consistent (consistent : s.Consistent none) {fd : Nat}
    (free : s.isOpen fd = false) (small : s.nextConnId < intMax) :
    ∃ after, s.newConnection fd = .ok after ∧ after.Consistent none := by
  simp only [newConnection, small, if_true]
  exact runInLoop_consistent
    (inserted_consistent consistent free small s.getNextLoop.1 s.writeCompleteCallback
      s.getNextLoop.2) (Function.update_self ..) (by simp) (baseLoop threads)

/-- A poller knows no descriptor but that of a channel in it. -/
theorem Consistent.owner {running : Option ServerFunctor} (consistent : s.Consistent running)
    (loop : Loop threads) (fd : Nat)
    (known : (s.pollers loop).channels fd ≠ none ∨ (s.pollers loop).interest fd ≠ none) :
    ∃ conn object, s.objects conn = some object ∧ object.loop = loop ∧
      object.conn.channel.fd = fd ∧ object.conn.channel.index ≠ .kNew ∧
      (s.pollers loop).Registered object.conn.channel := by
  by_contra nobody
  have vacant := consistent.vacant loop fd (fun conn object there sameLoop sameFd => by
    by_contra index
    have registered := consistent.registered conn object there
      (consistent.held_of_index there index)
    exact nobody ⟨conn, object, there, sameLoop, sameFd, index, sameLoop ▸ registered⟩)
  exact known.elim (absurd vacant.1) (absurd vacant.2)

theorem Consistent.of_channels {running : Option ServerFunctor} (consistent : s.Consistent running)
    {loop : Loop threads} {fd conn : Nat} (known : (s.pollers loop).channels fd = some conn) :
    ∃ object, s.objects conn = some object ∧ object.loop = loop ∧
      object.conn.channel.fd = fd ∧ object.conn.channel.index ≠ .kNew := by
  obtain ⟨owner, object, there, sameLoop, rfl, index, registered⟩ :=
    consistent.owner loop fd (.inl (by simp [known]))
  have channels := registered.channels
  rw [known, if_neg index, (consistent.known owner object there).self] at channels
  cases channels
  exact ⟨object, there, sameLoop, rfl, index⟩

theorem Consistent.of_interest {running : Option ServerFunctor} (consistent : s.Consistent running)
    {loop : Loop threads} {fd conn : Nat} {mask : EventMask}
    (watched : (s.pollers loop).interest fd = some (mask, conn)) :
    ∃ object, s.objects conn = some object ∧ object.loop = loop ∧
      object.conn.channel.fd = fd ∧ object.conn.channel.index = .kAdded ∧
      object.conn.channel.events = mask := by
  obtain ⟨owner, object, there, sameLoop, rfl, index, registered⟩ :=
    consistent.owner loop fd (.inr (by simp [watched]))
  have interest := registered.interest
  rw [watched, (consistent.known owner object there).self] at interest
  split at interest
  · rename_i added
    cases interest
    exact ⟨object, there, sameLoop, rfl, added, rfl⟩
  · cases interest

/-- An accept does not exhaust the `int` that numbers the connections. -/
def Counts (s : TcpServer threads) : ServerEvent threads → Prop
  | .accept _ => s.nextConnId < intMax
  | _ => True

/-- What a step fails with: it is not enabled, or the input buffer cannot grow further. -/
def Allowed (fault : Fault) : Prop := fault = .notEnabled ∨ Buffer.Throws fault

/-- One step of any loop. -/
theorem step_consistent (consistent : s.Consistent none) (event : ServerEvent threads)
    (counts : s.Counts event) : Spec Allowed (Consistent none) (s.step event) := by
  have weaken : ∀ {result : Except Fault (TcpServer threads)},
      Spec (· = Fault.notEnabled) (Consistent none) result →
        Spec Allowed (Consistent none) result := by
    intro result spec
    cases result with
    | ok after => exact spec
    | error fault => exact .inl spec
  cases event with
  | accept fd =>
      simp only [step]
      split
      case isTrue enabled =>
        obtain ⟨after, ran, kept⟩ := newConnection_consistent consistent enabled.2 counts
        rw [ran]
        exact kept
      case isFalse _ => exact .inl rfl
  | handleEvent loop fd revents =>
      simp only [step]
      split
      case h_1 _ => exact .inl rfl
      case h_2 mask conn watched =>
        obtain ⟨object, there, sameLoop, _, index, _⟩ := consistent.of_interest watched
        split
        case isTrue enabled =>
          refine setHandlers_consistent consistent (fun entry inside => ?_)
          obtain ⟨handler, _, rfl⟩ := List.mem_map.mp inside
          exact ⟨object, there, sameLoop, by simp [index]⟩
        case isFalse _ => exact .inl rfl
  | runHandler loop read writes => exact runHandler_consistent consistent loop read writes
  | retrieve loop len => exact weaken (retrieve_consistent consistent loop len)
  | swapFunctors loop =>
      simp only [step]
      split
      case isTrue idle =>
        exact setQueue_consistent consistent (BatchQueue.swap_waiting idle.2)
          (fun functor stored => BatchQueue.swap_content idle.2 ▸ stored)
      case isFalse _ => exact .inl rfl
  | runFunctor loop =>
      simp only [step]
      split
      case isTrue idle => exact weaken (runFunctor_consistent consistent idle)
      case isFalse _ => exact .inl rfl
  | endFunctors loop =>
      simp only [step]
      split
      case isTrue ended =>
        exact setQueue_consistent consistent rfl (fun functor stored =>
          BatchQueue.mem_content_of_waiting stored)
      case isFalse _ => exact .inl rfl

/-- How many connections a step numbers. -/
def accepts : ServerEvent threads → Nat
  | .accept _ => 1
  | _ => 0

theorem onConnection_nextConnId {β : Type} {conn : Nat}
    {body : TcpConnection → Except Fault (TcpConnection × β)} {result : TcpServer threads × β}
    (ran : s.onConnection conn body = .ok result) : result.1.nextConnId = s.nextConnId := by
  unfold onConnection at ran
  split at ran
  · cases ran
  · obtain ⟨value, _, returned⟩ := (bind_ok_iff _ _ _).mp ran
    cases returned
    rfl

theorem call_nextConnId {functor : ServerFunctor} {after : TcpServer threads}
    (ran : s.call functor = .ok after) : after.nextConnId = s.nextConnId := by
  cases functor with
  | connectEstablished conn =>
      obtain ⟨result, called, returned⟩ := (bind_ok_iff _ _ _).mp ran
      cases returned
      exact onConnection_nextConnId called
  | connectDestroyed conn =>
      obtain ⟨result, called, returned⟩ := (bind_ok_iff _ _ _).mp ran
      cases returned
      exact onConnection_nextConnId called
  | removeConnectionInLoop conn =>
      simp only [call, removeConnectionInLoop] at ran
      split at ran
      · cases ran
      · cases ran
        rfl

theorem runInLoop_nextConnId {caller loop : Loop threads} {functor : ServerFunctor}
    {after : TcpServer threads} (ran : s.runInLoop caller loop functor = .ok after) :
    after.nextConnId = s.nextConnId := by
  unfold runInLoop at ran
  split at ran
  · exact call_nextConnId ran
  · cases ran
    rfl

theorem step_nextConnId {event : ServerEvent threads} {after : TcpServer threads}
    (taken : s.step event = .ok after) : after.nextConnId = s.nextConnId + accepts event := by
  cases event with
  | accept fd =>
      obtain ⟨-, created⟩ := guard_ok taken
      obtain ⟨-, called⟩ := guard_ok created
      exact runInLoop_nextConnId called
  | handleEvent loop fd revents =>
      simp only [step] at taken
      split at taken
      · cases taken
      · obtain ⟨-, returned⟩ := guard_ok taken
        cases returned
        rfl
  | runHandler loop read writes =>
      simp only [step, runHandler] at taken
      split at taken
      · cases taken
      · obtain ⟨⟨middle, again⟩, called, rest⟩ := (bind_ok_iff _ _ _).mp taken
        have kept : middle.nextConnId = s.nextConnId := onConnection_nextConnId called
        simp only [removeConnection] at rest
        generalize (if again = true then _ else _ : List (Nat × Handler)) = handlers at rest
        split at rest
        · cases rest
          exact kept
        · have removed := runInLoop_nextConnId rest
          exact removed.trans kept
  | retrieve loop len =>
      simp only [step] at taken
      split at taken
      · cases taken
      · obtain ⟨result, ran, returned⟩ := (bind_ok_iff _ _ _).mp taken
        cases returned
        exact onConnection_nextConnId ran
  | swapFunctors loop =>
      obtain ⟨-, returned⟩ := guard_ok taken
      cases returned
      rfl
  | runFunctor loop =>
      obtain ⟨-, ran⟩ := guard_ok taken
      simp only [runFunctor] at ran
      split at ran
      · cases ran
      · have called := call_nextConnId ran
        exact called
  | endFunctors loop =>
      obtain ⟨-, returned⟩ := guard_ok taken
      cases returned
      rfl

/-- As long as the numbers last every accept finds one. -/
theorem guarded_counts {events : List (ServerEvent threads)} :
    ∀ {s : TcpServer threads}, s.nextConnId + (events.map accepts).sum ≤ intMax →
      Guarded step Counts s events := by
  induction events with
  | nil => exact fun _ => trivial
  | cons event events ih =>
      intro s few
      rw [List.map_cons, List.sum_cons] at few
      refine ⟨?_, ?_⟩
      · cases event <;> simp only [Counts, accepts] at few ⊢
        omega
      · cases taken : s.step event with
        | ok next =>
            refine ih ?_
            rw [step_nextConnId taken]
            omega
        | error fault => trivial

/-- No accept replaces an entry and no removal erases another connection's. While no functor
waits the table holds exactly the accepted connections that have not run `handleClose`, and
`channels_` and epoll know exactly the channels of those. -/
structure Agreement (s : TcpServer threads) : Prop where
  ledger : ∀ effect ∈ s.trace, effect.Own
  table : s.Quiet → ∀ name conn, s.connections name = some conn ↔
    ∃ object, s.objects conn = some object ∧ object.name = name ∧ object.conn.closeCallbacks = 0
  channels : s.Quiet → ∀ conn object, s.objects conn = some object →
    ((s.pollers object.loop).channels object.conn.channel.fd = some conn ↔
      s.connections object.name = some conn)
  interest : s.Quiet → ∀ conn object, s.objects conn = some object →
    ((∃ mask, (s.pollers object.loop).interest object.conn.channel.fd = some (mask, conn)) ↔
      s.connections object.name = some conn)

/-- While no functor waits a connection is up, or all about it is done. -/
theorem Consistent.settled (consistent : s.Consistent none) (quiet : s.Quiet) {conn : Nat}
    {object : ServerConn threads} (there : s.objects conn = some object) :
    (s.connections object.name = some conn ∧ object.conn.channel.index = .kAdded ∧
        object.conn.closeCallbacks = 0) ∨
      (s.connections object.name ≠ some conn ∧ object.conn.channel.index = .kNew ∧
        0 < object.conn.closeCallbacks) := by
  have none : ∀ functor, s.outstanding none object functor = 0 := by
    intro functor
    simp [outstanding, quiet (place object functor)]
  cases consistent.stage conn object there with
  | fresh _ _ _ establishing _ _ =>
      rw [none] at establishing
      cases establishing
  | up index opened tabled _ _ _ => exact .inl ⟨tabled, index, opened⟩
  | down _ closed _ removing destroying =>
      refine .inr ⟨fun tabled => ?_, ?_, closed⟩
      · have waits := removing tabled
        rw [none] at waits
        exact Nat.lt_irrefl 0 waits
      · by_contra index
        have waits := destroying index
        rw [none, none] at waits
        exact Nat.lt_irrefl 0 waits

theorem Consistent.agreement (consistent : s.Consistent none) : s.Agreement := by
  refine ⟨consistent.ledger, fun quiet name conn => ⟨?_, ?_⟩,
    fun quiet conn object there => ⟨?_, ?_⟩, fun quiet conn object there => ⟨?_, ?_⟩⟩
  · intro tabled
    obtain ⟨object, there, rfl⟩ := consistent.filed name conn tabled
    rcases consistent.settled quiet there with ⟨_, _, opened⟩ | ⟨absent, _⟩
    · exact ⟨object, there, rfl, opened⟩
    · exact absurd tabled absent
  · rintro ⟨object, there, rfl, opened⟩
    rcases consistent.settled quiet there with ⟨tabled, _⟩ | ⟨_, _, closed⟩
    · exact tabled
    · omega
  · intro known
    obtain ⟨object', there', _, _, index⟩ := consistent.of_channels known
    cases there.symm.trans there'
    rcases consistent.settled quiet there with ⟨tabled, _⟩ | ⟨_, new, _⟩
    · exact tabled
    · exact absurd new index
  · intro tabled
    rcases consistent.settled quiet there with ⟨_, added, _⟩ | ⟨absent, _⟩
    · have registered := consistent.registered conn object there (.inl (.inl tabled))
      rw [registered.channels, added, (consistent.known conn object there).self]
      rfl
    · exact absurd tabled absent
  · rintro ⟨mask, watched⟩
    obtain ⟨object', there', _, _, added, _⟩ := consistent.of_interest watched
    cases there.symm.trans there'
    rcases consistent.settled quiet there with ⟨tabled, _⟩ | ⟨_, new, _⟩
    · exact tabled
    · simp [added] at new
  · intro tabled
    rcases consistent.settled quiet there with ⟨_, added, _⟩ | ⟨absent, _⟩
    · have registered := consistent.registered conn object there (.inl (.inl tabled))
      refine ⟨object.conn.channel.events, ?_⟩
      rw [registered.interest, added, (consistent.known conn object there).self]
      rfl
    · exact absurd tabled absent

/-- In every run of the loops with fewer accepts than the numbers of an `int` the table agrees
with the pollers throughout, and no epoll operation fails. -/
theorem connections_agree (config : ServerConfig) (events : List (ServerEvent threads))
    (few : (events.map accepts).sum < 2 ^ 31 - 1) :
    Always step Agreement Allowed (create threads config) events := by
  refine always_of_guarded (Consistent none) (fun _ => Consistent.agreement)
    (fun _ event consistent counts => step_consistent consistent event counts)
    (consistent_create config) (guarded_counts ?_)
  show 1 + (events.map accepts).sum ≤ intMax
  unfold intMax
  omega

/-- A connection that is closed twice for one event, and a later one with its descriptor. -/
def closedTwice : List (ServerEvent 1) :=
  [.accept 5, .swapFunctors 1, .runFunctor 1, .endFunctors 1,
    .handleEvent 1 5 (EPOLLIN ||| EPOLLERR), .runHandler 1 (.data []) [],
    .runHandler 1 (.data []) [], .swapFunctors 0, .runFunctor 0, .runFunctor 0, .endFunctors 0,
    .swapFunctors 1, .runFunctor 1, .runFunctor 1, .endFunctors 1,
    .accept 5, .swapFunctors 1, .runFunctor 1, .endFunctors 1]

theorem connections_agree_closedTwice :
    ∃ s, run step (create 1 ⟨"Echo", ⟨(127, 0, 0, 1), 8080⟩, false⟩) closedTwice = .ok s ∧
      s.Quiet ∧ s.connections "Echo-127.0.0.1:8080#1" = none ∧
      s.connections "Echo-127.0.0.1:8080#2" = some 2 ∧ s.Agreement := by
  have agree := connections_agree ⟨"Echo", ⟨(127, 0, 0, 1), 8080⟩, false⟩ closedTwice (by decide)
  obtain ⟨s, reached, fact⟩ := (map_ok_iff _ _ _).mp
    (show (run step (create 1 ⟨"Echo", ⟨(127, 0, 0, 1), 8080⟩, false⟩) closedTwice).map
        (fun s => (decide s.Quiet, s.connections "Echo-127.0.0.1:8080#1",
          s.connections "Echo-127.0.0.1:8080#2")) = .ok (true, none, some 2) by decide +kernel)
  simp only [Prod.mk.injEq, decide_eq_true_eq] at fact
  exact ⟨s, reached, fact.1, fact.2.1, fact.2.2, agree.target reached⟩

end TcpServer

end KamaWebserver
