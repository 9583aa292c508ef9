import KamaWebserver.Session

set_option autoImplicit false

namespace KamaWebserver

open Outcome Trace Transition

namespace TcpConnection

/-- A connection in kConnected has not closed its write side, and nothing on its way does.
It never comes back to kConnected. -/
structure Leaving (c : TcpConnection) (calls : List UserCall) : Prop where
  sound : c.Sound
  once : .connectEstablished ∉ c.functors ++ c.pendingFunctors
  connected : c.state = .kConnected → .shutdownWrite ∉ c.trace ∧
    .shutdownInLoop ∉ c.functors ++ c.pendingFunctors ∧ .queueShutdown ∉ calls

variable {c after : TcpConnection} {calls calls' : List UserCall}

theorem mem_visible {effect : Effect} (visible : effect.isVisible = true) (c : TcpConnection) :
    effect ∈ c.visible ↔ effect ∈ c.trace := by
  simp [TcpConnection.visible, visible]

/-- A step that stays in kConnected adds none of the ways to `shutdownWrite`. -/
theorem Leaving.of_step (leaving : c.Leaving calls) (sound : after.Sound)
    (state : after.state = .kConnected → c.state = .kConnected)
    (functors : ∀ functor ∈ after.functors ++ after.pendingFunctors,
      functor ∈ c.functors ++ c.pendingFunctors ∨ functor ≠ .connectEstablished ∧
        (after.state = .kConnected → functor ≠ .shutdownInLoop))
    (closes : after.state = .kConnected → .shutdownWrite ∈ after.trace →
      .shutdownWrite ∈ c.trace)
    (called : after.state = .kConnected → .queueShutdown ∈ calls' → .queueShutdown ∈ calls) :
    after.Leaving calls' := by
  refine ⟨sound, ?_, ?_⟩
  · intro inside
    rcases functors _ inside with old | new
    · exact leaving.once old
    · exact new.1 rfl
  · intro up
    obtain ⟨open', waiting, calling⟩ := leaving.connected (state up)
    refine ⟨fun closed => open' (closes up closed), ?_, fun call => calling (called up call)⟩
    intro inside
    rcases functors _ inside with old | new
    · exact waiting old
    · exact new.2 up rfl

theorem Leaving.extends (leaving : c.Leaving calls) {left : List UInt8} {effects : List Effect}
    (extended : c.Extends after left effects)
    (open' : c.state = .kConnected → .shutdownWrite ∉ effects) : after.Leaving calls := by
  obtain ⟨added, queued, -, own⟩ := extended.pending
  refine leaving.of_step extended.sound (fun up => extended.state.symm.trans up) ?_ ?_
    fun _ call => call
  · intro functor inside
    rw [extended.functors, queued, ← List.append_assoc] at inside
    rcases List.mem_append.mp inside with old | new
    · exact Or.inl old
    · have output := own functor new
      refine Or.inr ⟨?_, fun _ => ?_⟩
      · rintro rfl
        cases output
      · rintro rfl
        cases output
  · intro up closed
    rw [← mem_visible rfl, extended.visible] at closed
    rcases List.mem_append.mp closed with new | old
    · exact absurd new (open' (extended.state.symm.trans up))
    · exact (mem_visible rfl c).mp old

/-- A change of state that does not lead to kConnected. -/
theorem Leaving.switches (leaving : c.Leaving calls) {state : ConnState} {effects : List Effect}
    (switched : c.Switches after state effects) (down : state ≠ .kConnected) :
    after.Leaving calls := by
  have left : after.state ≠ .kConnected := by
    rw [switched.state]
    exact down
  refine leaving.of_step switched.sound (fun up => absurd up left) ?_
    (fun up => absurd up left) fun _ call => call
  intro functor inside
  rw [switched.functors, switched.pendingFunctors] at inside
  exact Or.inl inside

/-- A functor of the kinds other than `connectEstablished` joins the queue. -/
theorem Leaving.queueInLoop (leaving : c.Leaving calls) {functor : Functor}
    (other : functor ≠ .connectEstablished)
    (shuts : functor = .shutdownInLoop → c.state ≠ .kConnected) :
    (c.queueInLoop functor).Leaving calls := by
  refine leaving.of_step (leaving.sound.queueInLoop functor) id ?_ ?_ fun _ call => call
  · intro next inside
    rw [TcpConnection.queueInLoop, ← List.append_assoc] at inside
    rcases List.mem_append.mp inside with old | new
    · exact Or.inl old
    · rw [List.mem_singleton] at new
      subst new
      exact Or.inr ⟨other, fun up shut => shuts shut up⟩
  · intro _ closed
    simpa [TcpConnection.queueInLoop] using closed

theorem Leaving.handleWrite (leaving : c.Leaving calls) {results : List IoResult}
    (wrote : c.handleWrite results = .ok after) : after.Leaving calls := by
  obtain ⟨next, effects, returned, extended, -, -, -, -, closes⟩ :=
    handleWrite_ok leaving.sound results
  cases returned.symm.trans wrote
  refine leaving.extends extended fun up closed => ?_
  obtain ⟨earlier, -, state, -⟩ := closes.past closed rfl
  rw [up] at state
  cases state

theorem Leaving.handleClose (leaving : c.Leaving calls) (closed : c.handleClose = .ok after) :
    after.Leaving calls := by
  obtain ⟨next, returned, switched, -⟩ := handleClose_ok leaving.sound
  cases returned.symm.trans closed
  exact leaving.switches switched (by decide)

theorem Leaving.connectDestroyed (leaving : c.Leaving calls)
    (ran : c.connectDestroyed = .ok after) : after.Leaving calls := by
  obtain ⟨next, returned, outcome⟩ := connectDestroyed_ok leaving.sound
  cases returned.symm.trans ran
  split at outcome
  · exact leaving.switches outcome.1 (by decide)
  · rename_i down
    exact leaving.switches outcome.1 down

theorem Leaving.readOnce (leaving : c.Leaving calls) {result : ReadResult} {again : Bool}
    (read : c.readOnce result = .ok (after, again)) : after.Leaving calls := by
  cases closes : c.closesOnRead result with
  | true =>
      obtain ⟨next, returned, switched, -⟩ := readOnce_closes leaving.sound result closes
      cases returned.symm.trans read
      exact leaving.switches switched (by decide)
  | false =>
      obtain ⟨sound, -, state, -, functors, pending, trace⟩ :=
        (readOnce_keeps leaving.sound result closes).of_ok read
      dsimp only at state functors pending trace
      refine leaving.of_step sound (fun up => state.symm.trans up) ?_ ?_ fun _ call => call
      · intro functor inside
        rw [functors, pending] at inside
        exact Or.inl inside
      · intro _ closed
        rcases trace with same | grown
        · rwa [same] at closed
        · simpa [grown] using closed

theorem Leaving.shutdownInLoop (leaving : c.Leaving calls) (down : c.state ≠ .kConnected) :
    c.shutdownInLoop.Leaving calls :=
  leaving.extends (shutdownInLoop_extends leaving.sound) fun up => absurd up down

theorem Leaving.sendInLoop (leaving : c.Leaving calls) {data : ByteString} {result : IoResult}
    (ran : c.sendInLoop data result = .ok after) : after.Leaving calls := by
  obtain ⟨effects, extended, shown, -⟩ := (sendInLoop_spec leaving.sound data result).of_ok ran
  refine leaving.extends extended fun _ closed => ?_
  cases shown _ closed

theorem Leaving.sendFileInLoop (leaving : c.Leaving calls) (file : List UInt8)
    (offset count : Nat) (result : IoResult) :
    (c.sendFileInLoop file offset count result).Leaving calls := by
  obtain ⟨left, extended, -⟩ := sendFileInLoop_extends leaving.sound file offset count result
  refine leaving.extends extended fun _ closed => ?_
  cases fileEffects_isOutput c _ result _ closed

/-- The functor leaves the batch and runs. -/
theorem Leaving.runFunctor (leaving : c.Leaving calls) {functor : Functor}
    {functors : List Functor} (batch : c.functors = functor :: functors) {result : IoResult}
    (ran : (c.setBatch functors).runFunctor functor result = .ok after) :
    after.Leaving calls := by
  have popped : (c.setBatch functors).Leaving calls := by
    refine leaving.of_step (leaving.sound.setBatch functors) id ?_ (fun _ closed => closed)
      fun _ call => call
    intro next inside
    rw [batch]
    exact Or.inl (List.mem_cons_of_mem _ inside)
  cases functor with
  | connectEstablished => exact absurd (by simp [batch]) leaving.once
  | connectDestroyed => exact popped.connectDestroyed ran
  | sendInLoop data => exact popped.sendInLoop ran
  | sendFileInLoop file offset count =>
      cases ran
      exact popped.sendFileInLoop file offset count result
  | shutdownInLoop =>
      cases ran
      refine popped.shutdownInLoop fun up => (leaving.connected up).2.1 ?_
      simp [batch]
  | writeComplete =>
      cases ran
      exact popped
  | highWaterMark pending =>
      cases ran
      exact popped

theorem Leaving.emit (leaving : c.Leaving calls) (effect : Effect)
    (other : effect ≠ .shutdownWrite) : (c.emit effect).Leaving calls := by
  refine leaving.of_step (leaving.sound.emit effect) id (fun _ inside => Or.inl inside) ?_
    fun _ call => call
  intro _ closed
  rcases List.mem_cons.mp closed with new | old
  · exact absurd new.symm other
  · exact old

end TcpConnection

namespace Session

variable {s after : Session}

/-- A step of a call in flight. -/
theorem advance_leaving (leaving : s.conn.Leaving s.calls) {index : Nat}
    (taken : s.advance index = .ok after) : after.conn.Leaving after.calls := by
  obtain ⟨call, found, rfl⟩ := advance_ok taken
  have waiting : call ∈ s.calls := List.mem_of_getElem? found
  have fewer : ∀ other, other ∈ s.calls.take index ++ s.calls.drop (index + 1) →
      other ∈ s.calls := by
    intro other inside
    rcases List.mem_append.mp inside with first | second
    · exact List.mem_of_mem_take first
    · exact List.mem_of_mem_drop second
  have queued : ∀ functor : Functor, functor ≠ .connectEstablished →
      (functor = .shutdownInLoop → s.conn.state ≠ .kConnected) →
      (s.conn.queueInLoop functor).Leaving
        (s.calls.take index ++ [] ++ s.calls.drop (index + 1)) := by
    intro functor other shuts
    have joined := leaving.queueInLoop other shuts
    refine joined.of_step joined.sound id (fun _ inside => Or.inl inside) (fun _ closed => closed)
      fun _ call => fewer _ (by rwa [List.append_nil] at call)
  cases call with
  | queueSend data => exact queued _ (by simp) (by simp)
  | queueSendFile file offset count => exact queued _ (by simp) (by simp)
  | storeDisconnecting =>
      refine leaving.of_step (leaving.sound.setState _) ?_ (fun _ inside => Or.inl inside)
        (fun _ closed => closed) ?_
      · intro up
        cases up
      · intro up
        cases up
  | queueShutdown => exact queued _ (by simp) fun _ up => (leaving.connected up).2.2 waiting

theorem begin_leaving (leaving : s.conn.Leaving s.calls) {call : UserCall}
    (first : call ≠ .queueShutdown) : (call.begin s.conn).Leaving (s.calls ++ [call]) := by
  have started : (call.begin s.conn).Leaving s.calls := by
    cases call with
    | queueSend data => exact leaving.emit _ (by simp)
    | queueSendFile file offset count => exact leaving.emit _ (by simp)
    | storeDisconnecting => exact leaving
    | queueShutdown => exact leaving
  refine started.of_step started.sound id (fun _ inside => Or.inl inside) (fun _ closed => closed)
    ?_
  intro _ inside
  rcases List.mem_append.mp inside with old | new
  · exact old
  · exact absurd (List.mem_singleton.mp new).symm first

theorem step_leaving {event : SessionEvent} (leaving : s.conn.Leaving s.calls)
    (taken : s.step event = .ok after) : after.conn.Leaving after.calls := by
  cases step_inv taken with
  | handleEvent revents idle between seen => exact leaving
  | handleClose rest conn waiting closed => exact leaving.handleClose closed
  | handleError rest conn waiting closed => exact leaving.handleClose closed
  | handleRead result rest conn again waiting read => exact leaving.readOnce read
  | handleWrite results rest conn waiting wrote => exact leaving.handleWrite wrote
  | doPendingFunctors idle between =>
      refine leaving.of_step leaving.sound.swapFunctors id ?_ (fun _ closed => closed)
        fun _ call => call
      intro functor inside
      left
      simpa [TcpConnection.swapFunctors, between] using inside
  | runFunctor result functor functors conn batch ran => exact leaving.runFunctor batch ran
  | retrieve len =>
      exact leaving.of_step (leaving.sound.retrieveInput len) id (fun _ inside => Or.inl inside)
        (fun _ closed => closed) fun _ call => call
  | send data result conn up ran => exact (leaving.emit _ (by simp)).sendInLoop ran
  | sendRefused data result down => exact leaving
  | sendFile file offset count result between middle up other =>
      have accepted : (s.accept (fileSegment file offset count)).conn.Leaving s.calls :=
        leaving.emit _ (by simp)
      cases between with
      | none =>
          cases other
          exact accepted.sendFileInLoop file offset count result
      | some index =>
          exact (advance_leaving accepted other).sendFileInLoop file offset count result
  | sendFileRefused file offset count result between down => exact leaving
  | shutdown up =>
      have down : (s.conn.setState .kDisconnecting).Leaving s.calls := by
        refine leaving.of_step (leaving.sound.setState _) ?_ (fun _ inside => Or.inl inside)
          (fun _ closed => closed) fun _ call => call
        intro up
        cases up
      exact down.shutdownInLoop (by simp [TcpConnection.setState])
  | shutdownRefused down => exact leaving
  | other call up first => exact begin_leaving leaving first
  | advance index _ moved => exact advance_leaving leaving moved
  | storeOverwritten index found down =>
      exact leaving.of_step leaving.sound id (fun _ inside => Or.inl inside)
        (fun _ closed => closed) fun up => absurd (down.symm.trans up) (by decide)
  | removeConnectionInLoop closed => exact leaving.queueInLoop (by simp) (by simp)
  | destroyHere conn tabled idle ran => exact leaving.connectDestroyed ran
  | destroyElsewhere tabled => exact leaving.queueInLoop (by simp) (by simp)

theorem start_leaving (config : Config) :
    (start config).conn.Leaving (start config).calls := by
  refine ⟨established_sound config, ?_, fun _ => ⟨?_, ?_, ?_⟩⟩
  all_goals simp [start, established, TcpConnection.create]

end Session

end KamaWebserver
