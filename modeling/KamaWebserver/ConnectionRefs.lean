import KamaWebserver.Library.BatchQueue
import KamaWebserver.Session

set_option autoImplicit false

namespace KamaWebserver

open Outcome Transition

/-- Whether the functor owns the connection it is bound to: `send` and `shutdown` bind the
raw `this`, all others a `shared_ptr`. -/
def Functor.holds : Functor → Bool
  | .sendInLoop _ => false
  | .shutdownInLoop => false
  | _ => true

/-- What the main loop's queue can hold for one connection. -/
inductive MainFunctor
  | removeConnectionInLoop
  deriving DecidableEq

/-- The references to one connection: the entry of `connections_`, the functors in the
storage of both loops, and the application's copies, each with the call it is used for.
Functors of other connections lie between these and refer to others. `counts` records the
strong count at each run of a functor of the io loop, oldest first. -/
structure ConnectionRefs where
  state : ConnState
  tabled : Bool
  established : Bool
  mainLoop : BatchQueue MainFunctor
  ioLoop : BatchQueue Functor
  holders : List (Option UserCall)
  counts : List Nat

/-- The steps of the application's threads, of the io loop and of the main loop. `queued` are
the functors that the handler or functor queues through the sending functions. -/
inductive RefEvent
  | copy
  | release (index : Nat)
  | call (index : Nat) (call : UserCall)
  | advance (index : Nat)
  | handle (queued : List Functor)
  | shutdown
  | handleClose
  | doPendingFunctors
  | runFunctor (queued : List Functor)
  | endBatch
  | mainDoPendingFunctors
  | removeConnectionInLoop
  | mainEndBatch

namespace ConnectionRefs

/-- `use_count()`. -/
def strong (s : ConnectionRefs) : Nat :=
  (if s.tabled then 1 else 0) + s.mainLoop.content.length +
    s.ioLoop.content.countP Functor.holds + s.holders.length

/-- `newConnection` has entered the connection into the table and queued
`connectEstablished`. -/
def start : ConnectionRefs where
  state := .kConnecting
  tabled := true
  established := false
  mainLoop := .empty
  ioLoop := BatchQueue.empty.push [.connectEstablished]
  holders := []
  counts := []

def queueInLoop (s : ConnectionRefs) (functors : List Functor) : ConnectionRefs :=
  { s with ioLoop := s.ioLoop.push functors }

/-- The next step of the call that the copy at `index` is used for. -/
def advanceCall (s : ConnectionRefs) (index : Nat) : UserCall → ConnectionRefs
  | .queueSend data =>
      { s.queueInLoop [.sendInLoop data] with holders := s.holders.set index none }
  | .queueSendFile file offset count =>
      { s.queueInLoop [.sendFileInLoop file offset count] with
        holders := s.holders.set index none }
  | .storeDisconnecting =>
      { s with state := .kDisconnecting, holders := s.holders.set index (some .queueShutdown) }
  | .queueShutdown =>
      { s.queueInLoop [.shutdownInLoop] with holders := s.holders.set index none }

/-- What running the functor does to the state. -/
def ranFunctor (s : ConnectionRefs) : Functor → ConnectionRefs
  | .connectEstablished => { s with state := .kConnected, established := true }
  | .connectDestroyed =>
      if s.state = .kConnected then { s with state := .kDisconnected } else s
  | _ => s

/-- Run the next functor of the io loop's batch. -/
def runFunctor (s : ConnectionRefs) (queued : List Functor) : Except Fault ConnectionRefs :=
  match s.ioLoop.next with
  | none => .error .notEnabled
  | some (functor, ioLoop) =>
      let s := { s with ioLoop, counts := s.counts ++ [s.strong] }
      .ok ((s.ranFunctor functor).queueInLoop queued)

/-- `removeConnectionInLoop` for the next functor of the main loop's batch. -/
def removeConnectionInLoop (s : ConnectionRefs) : Except Fault ConnectionRefs :=
  match s.mainLoop.next with
  | none => .error .notEnabled
  | some (_, mainLoop) =>
      .ok ({ s with mainLoop, tabled := false }.queueInLoop [.connectDestroyed])

/-- The io loop is between batches and the channel's tie to the connection holds. -/
def canHandle (s : ConnectionRefs) : Prop :=
  s.established = true ∧ s.ioLoop.Between ∧ 0 < s.strong

instance (s : ConnectionRefs) : Decidable s.canHandle :=
  inferInstanceAs (Decidable (s.established = true ∧ s.ioLoop.Between ∧ 0 < s.strong))

/-- Only the sending functions queue functors from within the loop. -/
def ownQueued (queued : List Functor) : Prop := ∀ functor ∈ queued, functor.isOutput = true

instance (queued : List Functor) : Decidable (ownQueued queued) :=
  inferInstanceAs (Decidable (∀ functor ∈ queued, functor.isOutput = true))

def step (s : ConnectionRefs) : RefEvent → Except Fault ConnectionRefs
  | .copy =>
      if 0 < s.strong then .ok { s with holders := s.holders ++ [none] } else .error .notEnabled
  | .release index =>
      if s.holders[index]? = some none then .ok { s with holders := s.holders.eraseIdx index }
      else .error .notEnabled
  | .call index call =>
      if s.holders[index]? = some none ∧ s.state = .kConnected ∧ call ≠ .queueShutdown then
        .ok { s with holders := s.holders.set index (some call) }
      else .error .notEnabled
  | .advance index =>
      match s.holders[index]? with
      | some (some call) => .ok (s.advanceCall index call)
      | _ => .error .notEnabled
  | .handle queued =>
      if s.canHandle ∧ ownQueued queued then .ok (s.queueInLoop queued) else .error .notEnabled
  | .shutdown =>
      if 0 < s.strong ∧ s.state = .kConnected then .ok { s with state := .kDisconnecting }
      else .error .notEnabled
  | .handleClose =>
      if s.canHandle then
        .ok { s with
          state := .kDisconnected
          mainLoop := s.mainLoop.push [.removeConnectionInLoop] }
      else .error .notEnabled
  | .doPendingFunctors =>
      if s.ioLoop.Between then .ok { s with ioLoop := s.ioLoop.swap } else .error .notEnabled
  | .runFunctor queued =>
      if ownQueued queued then s.runFunctor queued else .error .notEnabled
  | .endBatch =>
      if s.ioLoop.batch = [] then .ok { s with ioLoop := s.ioLoop.finish } else .error .notEnabled
  | .mainDoPendingFunctors =>
      if s.mainLoop.Between then .ok { s with mainLoop := s.mainLoop.swap }
      else .error .notEnabled
  | .removeConnectionInLoop => s.removeConnectionInLoop
  | .mainEndBatch =>
      if s.mainLoop.batch = [] then .ok { s with mainLoop := s.mainLoop.finish }
      else .error .notEnabled

/-- Every functor of the io loop ran on a connection that was alive. -/
def Alive (s : ConnectionRefs) : Prop := ∀ count ∈ s.counts, 1 ≤ count

/-- A functor that owns the connection is destroyed no earlier than every raw one: it is
pending with the raw ones that are pending, and anywhere in the storage for those of the
batch. -/
def Covered (queue : BatchQueue Functor) : Prop :=
  ((∃ functor ∈ queue.pending, functor.holds = false) →
      ∃ functor ∈ queue.pending, functor.holds = true) ∧
    ((∃ functor ∈ queue.batch, functor.holds = false) →
      ∃ functor ∈ queue.content, functor.holds = true)

/-- The raw functors that wait are safe without the application's copies: the table still
holds the connection, or a removal waits in the main loop, or they are covered. -/
def Protected (s : ConnectionRefs) : Prop :=
  s.tabled = true ∨ s.mainLoop.waiting ≠ [] ∨ Covered s.ioLoop

/-- The application gives up its last copy only while the waiting functors are protected. -/
def KeepsCopy (s : ConnectionRefs) : RefEvent → Prop
  | .release _ => 1 < s.holders.length ∨ s.Protected
  | _ => True

instance (queue : BatchQueue Functor) : Decidable (Covered queue) :=
  inferInstanceAs (Decidable (((∃ functor ∈ queue.pending, functor.holds = false) →
      ∃ functor ∈ queue.pending, functor.holds = true) ∧
    ((∃ functor ∈ queue.batch, functor.holds = false) →
      ∃ functor ∈ queue.content, functor.holds = true)))

instance (s : ConnectionRefs) : Decidable s.Protected :=
  inferInstanceAs (Decidable (s.tabled = true ∨ s.mainLoop.waiting ≠ [] ∨ Covered s.ioLoop))

instance (s : ConnectionRefs) : ∀ event, Decidable (s.KeepsCopy event)
  | .release _ => inferInstanceAs (Decidable (1 < s.holders.length ∨ s.Protected))
  | .copy | .call _ _ | .advance _ | .handle _ | .shutdown | .handleClose | .doPendingFunctors
  | .runFunctor _ | .endBatch | .mainDoPendingFunctors | .removeConnectionInLoop
  | .mainEndBatch => isTrue trivial

section Covered

variable {queue rest : BatchQueue Functor}

/-- A functor that owns the connection covers all that is pending and all of the batch. -/
theorem covered_push_holds (queue : BatchQueue Functor) {functors : List Functor}
    (some : functors ≠ []) (own : ∀ functor ∈ functors, functor.holds = true) :
    Covered (queue.push functors) := by
  obtain ⟨functor, inside⟩ := List.exists_mem_of_ne_nil functors some
  have holds := own functor inside
  refine ⟨fun _ => ⟨functor, ?_, holds⟩, fun _ => ⟨functor, ?_, holds⟩⟩
  · exact List.mem_append_right _ inside
  · rw [BatchQueue.push_content]
    exact List.mem_append_right _ inside

theorem Covered.swap (covered : Covered queue) : Covered queue.swap := by
  refine ⟨?_, ?_⟩
  · rintro ⟨functor, inside, -⟩
    cases inside
  · intro raw
    obtain ⟨functor, inside, holds⟩ := covered.1 raw
    exact ⟨functor, by simp [BatchQueue.content, BatchQueue.swap, inside], holds⟩

theorem Covered.next {functor : Functor} (covered : Covered queue)
    (taken : queue.next = some (functor, rest)) : Covered rest := by
  have content := BatchQueue.next_content taken
  obtain ⟨front, same⟩ := BatchQueue.next_eq_some taken
  have pending : rest.pending = queue.pending := by
    rw [same]
  refine ⟨?_, ?_⟩
  · rw [pending]
    exact covered.1
  · rintro ⟨raw, inside, owns⟩
    rw [content]
    exact covered.2 ⟨raw, by simp [front, inside], owns⟩

theorem Covered.finish (covered : Covered queue) (ended : queue.batch = []) :
    Covered queue.finish := by
  refine ⟨covered.1, ?_⟩
  rintro ⟨raw, inside, -⟩
  simp [BatchQueue.finish, ended] at inside

end Covered

variable {s after : ConnectionRefs}

theorem holds_of_output {functors : List Functor} (own : ownQueued functors) :
    ∀ functor ∈ functors, functor.holds = true := by
  intro functor inside
  have output := own functor inside
  cases functor <;> first | rfl | cases output

/-- Every reference counts. -/
theorem strong_pos (kept : s.tabled = true ∨ s.mainLoop.content ≠ [] ∨
    (∃ functor ∈ s.ioLoop.content, functor.holds = true) ∨ s.holders ≠ []) : 0 < s.strong := by
  unfold strong
  rcases kept with tabled | waits | ⟨functor, inside, holds⟩ | held
  · simp only [tabled, ↓reduceIte]
    omega
  · have some := List.length_pos_iff.mpr waits
    omega
  · have some : 0 < s.ioLoop.content.countP Functor.holds :=
      List.countP_pos_iff.mpr ⟨functor, inside, holds⟩
    omega
  · have some := List.length_pos_iff.mpr held
    omega

/-- Something will keep the connection alive for every functor that waits. -/
def Safe (s : ConnectionRefs) : Prop := s.holders ≠ [] ∨ s.Protected

/-- The next functor of a safe connection runs on a live one. -/
theorem Safe.strong_pos (safe : s.Safe) {functor : Functor} {ioLoop : BatchQueue Functor}
    (taken : s.ioLoop.next = some (functor, ioLoop)) : 0 < s.strong := by
  obtain ⟨front, -⟩ := BatchQueue.next_eq_some taken
  apply ConnectionRefs.strong_pos
  have inside : functor ∈ s.ioLoop.content := by simp [BatchQueue.content, front]
  cases owns : functor.holds with
  | true => exact Or.inr (Or.inr (Or.inl ⟨functor, inside, owns⟩))
  | false =>
      rcases safe with held | tabled | waits | covered
      · exact Or.inr (Or.inr (Or.inr held))
      · exact Or.inl tabled
      · refine Or.inr (Or.inl fun none => waits ?_)
        simp only [BatchQueue.content, List.append_eq_nil_iff] at none
        simp [BatchQueue.waiting, none.1.2, none.2]
      · exact Or.inr (Or.inr (Or.inl (covered.2 ⟨functor, by simp [front], owns⟩)))

/-- Functors that own the connection endanger nothing. -/
theorem Safe.queueInLoop (safe : s.Safe) {functors : List Functor}
    (own : ∀ functor ∈ functors, functor.holds = true) : (s.queueInLoop functors).Safe := by
  by_cases none : functors = []
  · subst none
    have same : s.queueInLoop [] = s := by simp [ConnectionRefs.queueInLoop, BatchQueue.push]
    rwa [same]
  · exact Or.inr (Or.inr (Or.inr (covered_push_holds s.ioLoop none own)))

/-- What decides safety besides the queue of the io loop. -/
theorem Safe.of_eq (safe : s.Safe) (held : s.holders ≠ [] → after.holders ≠ [])
    (tabled : after.tabled = s.tabled) (waits : after.mainLoop.waiting = s.mainLoop.waiting)
    (covered : Covered s.ioLoop → Covered after.ioLoop) : after.Safe := by
  rcases safe with some | kept | some | kept
  · exact Or.inl (held some)
  · exact Or.inr (Or.inl (tabled.trans kept))
  · exact Or.inr (Or.inr (Or.inl (by rwa [waits])))
  · exact Or.inr (Or.inr (Or.inr (covered kept)))

theorem ranFunctor_keeps (s : ConnectionRefs) (functor : Functor) :
    (s.ranFunctor functor).holders = s.holders ∧ (s.ranFunctor functor).tabled = s.tabled ∧
      (s.ranFunctor functor).mainLoop = s.mainLoop ∧
      (s.ranFunctor functor).ioLoop = s.ioLoop ∧ (s.ranFunctor functor).counts = s.counts := by
  cases functor with
  | connectDestroyed =>
      unfold ranFunctor
      dsimp only
      split <;> exact ⟨rfl, rfl, rfl, rfl, rfl⟩
  | _ => exact ⟨rfl, rfl, rfl, rfl, rfl⟩

theorem runFunctor_ok {queued : List Functor} (taken : s.runFunctor queued = .ok after) :
    ∃ functor ioLoop, s.ioLoop.next = some (functor, ioLoop) ∧
      after = (ranFunctor { s with ioLoop, counts := s.counts ++ [s.strong] } functor).queueInLoop
        queued := by
  unfold runFunctor at taken
  cases front : s.ioLoop.next with
  | none => simp [front] at taken
  | some pair =>
      obtain ⟨functor, ioLoop⟩ := pair
      simp only [front] at taken
      cases taken
      exact ⟨functor, ioLoop, rfl, rfl⟩

theorem Safe.runFunctor (safe : s.Safe) {queued : List Functor} (own : ownQueued queued)
    (taken : s.runFunctor queued = .ok after) :
    after.Safe ∧ after.counts = s.counts ++ [s.strong] ∧ 0 < s.strong := by
  obtain ⟨functor, ioLoop, front, rfl⟩ := runFunctor_ok taken
  obtain ⟨holders, tabled, mainLoop, queue, counts⟩ :=
    ranFunctor_keeps { s with ioLoop, counts := s.counts ++ [s.strong] } functor
  refine ⟨Safe.queueInLoop ?_ (holds_of_output own), counts, safe.strong_pos front⟩
  refine safe.of_eq ?_ tabled (by rw [mainLoop]) ?_
  · rw [holders]
    exact id
  · rw [queue]
    exact fun covered => covered.next front

/-- A call in flight uses a copy, which stays. -/
theorem advanceCall_safe {index : Nat} (some : index < s.holders.length) (call : UserCall) :
    (s.advanceCall index call).Safe ∧ (s.advanceCall index call).counts = s.counts := by
  have kept : ∀ next, s.holders.set index next ≠ [] := by
    intro next none
    have length := congrArg List.length none
    simp only [List.length_set, List.length_nil] at length
    omega
  cases call with
  | queueSend data => exact ⟨Or.inl (kept _), rfl⟩
  | queueSendFile file offset count => exact ⟨Or.inl (kept _), rfl⟩
  | storeDisconnecting => exact ⟨Or.inl (kept _), rfl⟩
  | queueShutdown => exact ⟨Or.inl (kept _), rfl⟩

/-- Nothing has run on a dead connection, and nothing that waits will. -/
structure Secure (s : ConnectionRefs) : Prop where
  safe : s.Safe
  alive : s.Alive

theorem step_secure {event : RefEvent} (secure : s.Secure) (keeps : s.KeepsCopy event)
    (taken : s.step event = .ok after) : after.Secure := by
  obtain ⟨safe, alive⟩ := secure
  cases event with
  | copy =>
      obtain ⟨-, returned⟩ := guard_ok taken
      cases returned
      exact ⟨Or.inl (by simp), alive⟩
  | release index =>
      obtain ⟨found, returned⟩ := guard_ok taken
      cases returned
      refine ⟨?_, alive⟩
      obtain ⟨inside, -⟩ := List.getElem?_eq_some_iff.mp found
      rcases keeps with others | kept
      · left
        intro none
        have length := congrArg List.length none
        simp only [List.length_eraseIdx_of_lt inside, List.length_nil] at length
        omega
      · exact Or.inr kept
  | call index call =>
      obtain ⟨-, returned⟩ := guard_ok taken
      cases returned
      exact ⟨safe.of_eq (fun some => by simpa using some) rfl rfl id, alive⟩
  | advance index =>
      simp only [step] at taken
      split at taken
      · rename_i call found
        cases taken
        obtain ⟨inside, -⟩ := List.getElem?_eq_some_iff.mp found
        obtain ⟨kept, counts⟩ := advanceCall_safe inside call
        refine ⟨kept, ?_⟩
        rw [Alive, counts]
        exact alive
      · cases taken
  | handle queued =>
      obtain ⟨⟨-, own⟩, returned⟩ := guard_ok taken
      cases returned
      exact ⟨safe.queueInLoop (holds_of_output own), alive⟩
  | shutdown =>
      obtain ⟨-, returned⟩ := guard_ok taken
      cases returned
      exact ⟨safe, alive⟩
  | handleClose =>
      obtain ⟨-, returned⟩ := guard_ok taken
      cases returned
      exact ⟨Or.inr (Or.inr (Or.inl (by simp [BatchQueue.push_waiting]))), alive⟩
  | doPendingFunctors =>
      obtain ⟨-, returned⟩ := guard_ok taken
      cases returned
      exact ⟨safe.of_eq id rfl rfl Covered.swap, alive⟩
  | runFunctor queued =>
      obtain ⟨own, ran⟩ := guard_ok taken
      obtain ⟨kept, counts, live⟩ := safe.runFunctor own ran
      refine ⟨kept, ?_⟩
      intro count inside
      rw [counts] at inside
      rcases List.mem_append.mp inside with old | new
      · exact alive count old
      · rw [List.mem_singleton] at new
        omega
  | endBatch =>
      obtain ⟨ended, returned⟩ := guard_ok taken
      cases returned
      exact ⟨safe.of_eq id rfl rfl fun covered => covered.finish ended, alive⟩
  | mainDoPendingFunctors =>
      obtain ⟨between, returned⟩ := guard_ok taken
      cases returned
      exact ⟨safe.of_eq id rfl (BatchQueue.swap_waiting between) id, alive⟩
  | removeConnectionInLoop =>
      simp only [step, ConnectionRefs.removeConnectionInLoop] at taken
      split at taken
      · cases taken
      · cases taken
        exact ⟨Or.inr (Or.inr (Or.inr
          (covered_push_holds s.ioLoop (by simp) (by simp [Functor.holds])))), alive⟩
  | mainEndBatch =>
      obtain ⟨-, returned⟩ := guard_ok taken
      cases returned
      exact ⟨safe.of_eq id rfl rfl id, alive⟩

theorem start_secure : start.Secure := ⟨Or.inr (Or.inl rfl), nofun⟩

/-- In every run in which the application gives up its last copy only while the waiting
functors are protected, every functor of the io loop runs on a live connection. -/
theorem counts_pos (events : List RefEvent) (s : ConnectionRefs)
    (keeps : Guarded step KeepsCopy start events) (reached : run step start events = .ok s) :
    s.Alive :=
  (run_preserves Secure (fun _ _ _ secure keeps taken => step_secure secure keeps taken)
    start_secure keeps reached).alive

/-- The connection is established and the application has a copy of it. -/
def establish : List RefEvent := [.doPendingFunctors, .runFunctor [], .endBatch, .copy]

/-- The peer closes, the table entry goes and `connectDestroyed` is queued. -/
def close : List RefEvent :=
  [.handleClose, .mainDoPendingFunctors, .removeConnectionInLoop, .mainEndBatch]

/-- A send whose copy is released at once, before the connection is closed. -/
theorem counts_pos_send :
    ∃ s, run step start (establish ++ [.call 0 (.queueSend ⟨[1], by decide⟩), .advance 0,
        .release 0] ++ close ++ [.doPendingFunctors, .runFunctor [], .runFunctor []]) = .ok s ∧
      s.counts = [2, 1, 1] ∧ s.Alive := by
  obtain ⟨s, reached, counts⟩ := (map_ok_iff _ _ _).mp
    (show (run step start (establish ++ [.call 0 (.queueSend ⟨[1], by decide⟩), .advance 0,
        .release 0] ++ close ++ [.doPendingFunctors, .runFunctor [], .runFunctor []])).map
      (fun s => s.counts) = .ok [2, 1, 1] by decide +kernel)
  exact ⟨s, reached, counts, counts_pos _ s (by decide +kernel) reached⟩

/-- A send that tests the state, is overtaken by the whole removal, and queues its functor:
the functor runs after the last reference is gone. -/
theorem lateSend_not_alive :
    ¬ ∀ (events : List RefEvent) (s : ConnectionRefs),
      run step start events = .ok s → s.Alive := by
  intro always
  obtain ⟨s, reached, counts⟩ := (map_ok_iff _ _ _).mp
    (show (run step start (establish ++ [.call 0 (.queueSend ⟨[1], by decide⟩)] ++ close ++
        [.doPendingFunctors, .runFunctor [], .endBatch, .advance 0, .release 0,
          .doPendingFunctors, .runFunctor []])).map
      (fun s => s.counts) = .ok [2, 2, 0] by decide +kernel)
  have alive := always _ s reached
  unfold Alive at alive
  rw [counts] at alive
  exact absurd (alive 0 (by simp)) (by decide)

end ConnectionRefs

end KamaWebserver
