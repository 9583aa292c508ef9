import KamaWebserver.Session
import Mathlib.Order.WellFounded

set_option autoImplicit false

namespace KamaWebserver

open Outcome Transition

namespace TcpConnection

/-- The arguments with which `sendFileInLoop` queues itself again on the direct path. -/
def requeued (file : List UInt8) (offset count : Nat) (result : IoResult) : Option (Nat × Nat) :=
  match result with
  | .count _ =>
      let sent := (result.accepted (fileSegment file offset count)).length
      if 0 < count - sent then some (offset + sent, count - sent) else none
  | .error errno =>
      if faultError errno then none else if 0 < count then some (offset, count) else none

/-- A connection that is up, with nothing pending and nothing queued. -/
structure Quiet (c : TcpConnection) : Prop where
  up : c.state = .kConnected
  direct : c.canWriteDirectly = true
  functors : c.functors = []

variable {c : TcpConnection}

/-- Files bypass the output buffer: the direct path stays open. -/
theorem Quiet.emit (quiet : c.Quiet) (effect : Effect) : (c.emit effect).Quiet :=
  ⟨quiet.up, quiet.direct, quiet.functors⟩

theorem Quiet.completeWrite (quiet : c.Quiet) (remaining : Nat) :
    (c.completeWrite remaining).Quiet := by
  unfold TcpConnection.completeWrite queueWriteComplete
  split
  · split <;> exact ⟨quiet.up, quiet.direct, quiet.functors⟩
  · exact quiet

theorem Quiet.requeueFile (quiet : c.Quiet) (file : List UInt8) (offset remaining : Nat) :
    (c.requeueFile file offset remaining).Quiet := by
  unfold TcpConnection.requeueFile
  split
  · exact ⟨quiet.up, quiet.direct, quiet.functors⟩
  · exact quiet

/-- A run that starts with an empty queue leaves its own functor there, or none of a file. -/
theorem sendFileInLoop_quiet (quiet : c.Quiet) (empty : c.pendingFunctors = [])
    (file : List UInt8) (offset count : Nat) (result : IoResult) :
    (c.sendFileInLoop file offset count result).Quiet ∧
      match requeued file offset count result with
      | some (offset', rest) => (c.sendFileInLoop file offset count result).pendingFunctors =
          [.sendFileInLoop file offset' rest]
      | none => (c.sendFileInLoop file offset count result).pendingFunctors = [] ∨
          (c.sendFileInLoop file offset count result).pendingFunctors = [.writeComplete] := by
  have open' : c.state ≠ .kDisconnecting := by
    rw [quiet.up]
    decide
  simp only [sendFileInLoop, open', ↓reduceIte, quiet.direct]
  cases result with
  | count n =>
      refine ⟨((quiet.emit _).completeWrite _).requeueFile _ _ _, ?_⟩
      dsimp only [requeued]
      by_cases more :
          0 < count - (IoResult.accepted (.count n) (fileSegment file offset count)).length
      · simp [more, requeueFile, completeWrite, Nat.pos_iff_ne_zero.mp more, queueInLoop, emit,
          empty]
      · have done : count - (IoResult.accepted (.count n) (fileSegment file offset count)).length =
            0 := by omega
        simp only [done, Nat.lt_irrefl, ↓reduceIte, requeueFile, completeWrite, queueWriteComplete]
        split
        · exact .inr (by simp [queueInLoop, emit, empty])
        · exact .inl empty
  | error errno =>
      dsimp only [requeued]
      split
      · exact ⟨quiet.emit _, .inl empty⟩
      · refine ⟨(quiet.emit _).requeueFile _ _ _, ?_⟩
        unfold requeueFile
        by_cases more : 0 < count
        · simp [more, queueInLoop, emit, empty]
        · simp [more, emit, empty]

end TcpConnection

namespace Session

/-- One iteration of the loop that finds one functor in the queue. -/
def turn (s : Session) (result : IoResult) : Except Fault Session :=
  run step s [.doPendingFunctors, .runFunctor result]

/-- A call of `sendFile` and the first `n` iterations of the loop after it; the kernel gives
`answers` in turn. -/
def chain (s : Session) (file : List UInt8) (offset count : Nat) (answers : Nat → IoResult) :
    Nat → Except Fault Session
  | 0 => s.step (.sendFile file offset count (answers 0) none)
  | n + 1 => do
      let s ← chain s file offset count answers n
      s.turn (answers (n + 1))

/-- `offset` and `remaining` of the `sendFileInLoop` that waits alone in the queue. -/
def queuedFile (s : Session) : Option (Nat × Nat) :=
  match s.conn.pendingFunctors with
  | [.sendFileInLoop _ offset remaining] => some (offset, remaining)
  | _ => none

/-- The arguments of run `n`, if the chain comes to it. -/
def arguments (s : Session) (file : List UInt8) (offset count : Nat) (answers : Nat → IoResult) :
    Nat → Option (Nat × Nat)
  | 0 => some (offset, count)
  | n + 1 =>
      match s.chain file offset count answers n with
      | .ok after => after.queuedFile
      | .error _ => none

/-- Each requeue follows EAGAIN or leaves less to send. -/
def Decreases (s : Session) (file : List UInt8) (offset count : Nat)
    (answers : Nat → IoResult) : Prop :=
  ∀ n current left next rest, s.arguments file offset count answers n = some (current, left) →
    s.arguments file offset count answers (n + 1) = some (next, rest) →
    answers n = .error .EAGAIN ∨ rest < left

/-- EAGAIN answers only finitely many runs of the chain. -/
def SettlesDown (s : Session) (file : List UInt8) (offset count : Nat)
    (answers : Nat → IoResult) : Prop :=
  ∃ bound, ∀ n ≥ bound, s.arguments file offset count answers n ≠ none →
    answers n ≠ .error .EAGAIN

/-- Some run of the chain queues no other. -/
def Ends (s : Session) (file : List UInt8) (offset count : Nat) (answers : Nat → IoResult) :
    Prop :=
  ∃ n after, s.chain file offset count answers n = .ok after ∧ after.queuedFile = none

/-- The kernel takes something, asks to come back, or reports that the peer is gone. -/
def Advances (file : List UInt8) (offset remaining : Nat) (result : IoResult) : Prop :=
  result.accepted (fileSegment file offset remaining) ≠ [] ∨ result = .error .EAGAIN ∨
    result.givesUp = true

/-- An established connection on which nothing goes on. -/
structure Idle (s : Session) : Prop where
  quiet : s.conn.Quiet
  handlers : s.handlers = []
  pending : s.conn.pendingFunctors = []

variable {s : Session} {file : List UInt8} {offset count : Nat} {answers : Nat → IoResult}

theorem turn_ok {functor : Functor} {conn : TcpConnection} (quiet : s.conn.Quiet)
    (handlers : s.handlers = []) (waits : s.conn.pendingFunctors = [functor]) (result : IoResult)
    (ran : (s.conn.swapFunctors.setBatch []).runFunctor functor result = .ok conn) :
    s.turn result =
      .ok { s with conn, destroyed := s.destroyed || functor = .connectDestroyed } := by
  simp [turn, run, step, doPendingFunctors, runFunctor, handlers, quiet.functors,
    TcpConnection.swapFunctors, waits, bind, Except.bind, pure, Except.pure] at ran ⊢
  simp [ran]

/-- Between two iterations the queue holds at most the functor of the rest, or the notice. -/
structure Waits (s : Session) (file : List UInt8) : Prop where
  quiet : s.conn.Quiet
  handlers : s.handlers = []
  pending : s.conn.pendingFunctors = [] ∨ s.conn.pendingFunctors = [.writeComplete] ∨
    ∃ offset remaining, s.conn.pendingFunctors = [.sendFileInLoop file offset remaining]

theorem queuedFile_iff (waits : s.Waits file) (current remaining : Nat) :
    s.queuedFile = some (current, remaining) ↔
      s.conn.pendingFunctors = [.sendFileInLoop file current remaining] := by
  rcases waits.pending with empty | notice | ⟨offset, left, queued⟩
  · simp [queuedFile, empty]
  · simp [queuedFile, notice]
  · simp [queuedFile, queued]

theorem first_ok (idle : s.Idle) (file : List UInt8) (offset count : Nat) (result : IoResult) :
    s.step (.sendFile file offset count result none) = .ok { s with
      conn := (s.accept (fileSegment file offset count)).conn.sendFileInLoop file offset count
        result } := by
  simp [step, sendFile, TcpConnection.connected, idle.quiet.up, interleave, bind, Except.bind,
    pure, Except.pure, accept]

/-- A run of `sendFileInLoop` on a quiet connection with an empty queue. -/
theorem ran_waits {c : TcpConnection} (quiet : c.Quiet) (empty : c.pendingFunctors = [])
    (handlers : s.handlers = []) (file : List UInt8) (offset count : Nat) (result : IoResult)
    (destroyed : Bool) :
    Waits { s with conn := c.sendFileInLoop file offset count result, destroyed } file ∧
      queuedFile { s with conn := c.sendFileInLoop file offset count result, destroyed } =
        TcpConnection.requeued file offset count result := by
  obtain ⟨quiet', queued⟩ := TcpConnection.sendFileInLoop_quiet quiet empty file offset count result
  split at queued
  · rename_i next rest requeued
    have waits : Waits { s with
        conn := c.sendFileInLoop file offset count result, destroyed } file :=
      ⟨quiet', handlers, .inr (.inr ⟨next, rest, queued⟩)⟩
    exact ⟨waits, ((queuedFile_iff waits next rest).mpr queued).trans requeued.symm⟩
  · rename_i requeued
    rcases queued with none | notice
    · exact ⟨⟨quiet', handlers, .inl none⟩, by simp [queuedFile, none, requeued]⟩
    · exact ⟨⟨quiet', handlers, .inr (.inl notice)⟩, by simp [queuedFile, notice, requeued]⟩

theorem chain_waits (idle : s.Idle) (n : Nat) {after : Session}
    (reached : s.chain file offset count answers n = .ok after) : after.Waits file := by
  induction n generalizing after with
  | zero =>
      cases (first_ok idle file offset count (answers 0)).symm.trans reached
      exact (ran_waits (idle.quiet.emit _) idle.pending idle.handlers _ _ _ _ _).1
  | succ n ih =>
      obtain ⟨before, earlier, turned⟩ := (bind_ok_iff _ _ _).mp reached
      have waits := ih earlier
      have swapped : (before.conn.swapFunctors.setBatch []).Quiet :=
        ⟨waits.quiet.up, waits.quiet.direct, rfl⟩
      rcases waits.pending with empty | notice | ⟨current, remaining, queued⟩
      · simp [turn, run, step, doPendingFunctors, runFunctor, waits.handlers, waits.quiet.functors,
          TcpConnection.swapFunctors, empty] at turned
      · cases (turn_ok waits.quiet waits.handlers notice (answers (n + 1)) rfl).symm.trans turned
        exact ⟨swapped, waits.handlers, .inl rfl⟩
      · cases (turn_ok waits.quiet waits.handlers queued (answers (n + 1)) rfl).symm.trans turned
        exact (ran_waits swapped rfl waits.handlers _ _ _ _ _).1

/-- What run `n` leaves in the queue. -/
theorem chain_spec (idle : s.Idle) (n : Nat) {current remaining : Nat}
    (starts : s.arguments file offset count answers n = some (current, remaining)) :
    ∃ after, s.chain file offset count answers n = .ok after ∧
      after.queuedFile = TcpConnection.requeued file current remaining (answers n) := by
  cases n with
  | zero =>
      cases starts
      exact ⟨_, first_ok idle file offset count (answers 0),
        (ran_waits (idle.quiet.emit _) idle.pending idle.handlers _ _ _ _ _).2⟩
  | succ n =>
      simp only [arguments] at starts
      split at starts
      · rename_i before earlier
        have waits := chain_waits idle n earlier
        have queued := (queuedFile_iff waits current remaining).mp starts
        have turned := turn_ok waits.quiet waits.handlers queued (answers (n + 1)) rfl
        have swapped : (before.conn.swapFunctors.setBatch []).Quiet :=
          ⟨waits.quiet.up, waits.quiet.direct, rfl⟩
        have reached : s.chain file offset count answers (n + 1) =
            before.turn (answers (n + 1)) := by
          simp only [chain, earlier, bind, Except.bind]
        exact ⟨_, reached.trans turned, (ran_waits swapped rfl waits.handlers _ _ _ _ _).2⟩
      · cases starts

/-- The arguments of the next run are those the run before it queued. -/
theorem arguments_succ (idle : s.Idle) (n : Nat) {current remaining : Nat}
    (starts : s.arguments file offset count answers n = some (current, remaining)) :
    s.arguments file offset count answers (n + 1) =
      TcpConnection.requeued file current remaining (answers n) := by
  obtain ⟨after, reached, queued⟩ := chain_spec idle n starts
  simp only [arguments, reached, queued]

/-- When requeues without EAGAIN leave less and less, there are not infinitely many of them. -/
theorem ends_of_decreases (idle : s.Idle) (decreases : s.Decreases file offset count answers)
    (settles : s.SettlesDown file offset count answers) : s.Ends file offset count answers := by
  by_contra endless
  have goes (n : Nat) : ∃ current remaining,
      s.arguments file offset count answers n = some (current, remaining) := by
    induction n with
    | zero => exact ⟨offset, count, rfl⟩
    | succ n ih =>
        obtain ⟨current, remaining, starts⟩ := ih
        obtain ⟨after, reached, queued⟩ := chain_spec idle n starts
        cases next : after.queuedFile with
        | none => exact absurd ⟨n, after, reached, next⟩ endless
        | some pair => exact ⟨pair.1, pair.2, by simp only [arguments, reached, next]⟩
  choose current left starts using goes
  obtain ⟨bound, later⟩ := settles
  -- the remaining counts from `bound` on would descend forever
  obtain ⟨n, stays⟩ := WellFounded.not_rel_apply_succ (r := (· < ·)) fun n => left (bound + n)
  rcases decreases (bound + n) _ _ _ _ (starts _) (starts _) with again | less
  · exact later (bound + n) (Nat.le_add_right _ _) (by simp [starts]) again
  · exact stays less

/-- The chain of self-queued runs makes progress, and so ends, exactly when each run that has
something to send sends something, is told EAGAIN, or finds the peer gone. -/
theorem sendFile_ends_iff (idle : s.Idle) (file : List UInt8) (offset count : Nat)
    (answers : Nat → IoResult) :
    (s.Decreases file offset count answers ∧
      (s.SettlesDown file offset count answers → s.Ends file offset count answers)) ↔
    ∀ n current remaining, s.arguments file offset count answers n = some (current, remaining) →
      0 < remaining → Advances file current remaining (answers n) := by
  constructor
  · rintro ⟨decreases, -⟩ n current remaining starts some
    by_contra stuck
    obtain ⟨nothing, noAgain, noFault⟩ : _ ∧ _ ∧ _ := by
      simpa only [Advances, not_or, not_not] using stuck
    have next := arguments_succ idle n starts
    have same : TcpConnection.requeued file current remaining (answers n) =
        .some (current, remaining) := by
      cases answer : answers n with
      | count k =>
          rw [answer] at nothing
          simp [TcpConnection.requeued, nothing, some]
      | error errno =>
          rw [answer] at noFault
          have goes : TcpConnection.faultError errno = false := by
            simpa [IoResult.givesUp] using noFault
          simp [TcpConnection.requeued, goes, some]
    rcases decreases n _ _ _ _ starts (next.trans same) with again | less
    · exact noAgain again
    · exact Nat.lt_irrefl _ less
  · intro advances
    have decreases : s.Decreases file offset count answers := by
      intro n current left next rest starts requeues
      rw [arguments_succ idle n starts] at requeues
      cases answer : answers n with
      | count k =>
          simp only [answer, TcpConnection.requeued, Option.ite_none_right_eq_some,
            Option.some.injEq, Prod.mk.injEq] at requeues
          obtain ⟨more, -, rfl⟩ := requeues
          have taken := advances n current left starts (by omega)
          simp only [answer, Advances, reduceCtorEq, IoResult.givesUp, Bool.false_eq_true,
            or_false, ne_eq, ← List.length_eq_zero_iff] at taken
          exact .inr (by omega)
      | error errno =>
          simp only [answer, TcpConnection.requeued, Option.ite_none_left_eq_some,
            Option.ite_none_right_eq_some, Option.some.injEq, Prod.mk.injEq] at requeues
          obtain ⟨goes, more, -, rfl⟩ := requeues
          rcases advances n current left starts more with taken | again | gone
          · rw [answer] at taken
            exact absurd rfl taken
          · exact .inl (answer.symm.trans again)
          · rw [answer] at gone
            exact absurd gone goes
    exact ⟨decreases, ends_of_decreases idle decreases⟩

theorem start_idle (config : Config) : (start config).Idle := by
  have idle : (established config).channel.isWriting = false := by
    show ((kNoneEvent ||| EPOLLET ||| kReadEvent) &&& kWriteEvent != 0#32) = false
    decide
  have direct : (established config).canWriteDirectly = true :=
    (TcpConnection.canWriteDirectly_iff (established_sound config)).mpr
      ⟨idle, Block.window_empty _ _⟩
  exact ⟨⟨rfl, direct, rfl⟩, rfl, rfl⟩

/-- A file of two bytes that is sent byte by byte. -/
theorem sendFile_ends_iff_twoBytes :
    ((start plainConfig).Decreases [7, 8] 0 2 (fun _ => .count 1) ∧
      ((start plainConfig).SettlesDown [7, 8] 0 2 (fun _ => .count 1) →
        (start plainConfig).Ends [7, 8] 0 2 (fun _ => .count 1))) ↔
    ∀ n current remaining,
      (start plainConfig).arguments [7, 8] 0 2 (fun _ => .count 1) n = some (current, remaining) →
        0 < remaining → Advances [7, 8] current remaining (.count 1) :=
  sendFile_ends_iff (start_idle plainConfig) [7, 8] 0 2 fun _ => .count 1

/-- `sendfile` at the end of a file of one byte, of which two were to be sent. -/
def endOfFile : Nat → IoResult
  | 0 => .count 1
  | _ => .count 0

/-- A count that reaches past the end of the file: the chain gets nothing, is never told
EAGAIN, and never ends. -/
theorem endOfFile_requeues :
    (start plainConfig).SettlesDown [7] 0 2 endOfFile ∧
      ¬ (start plainConfig).Decreases [7] 0 2 endOfFile ∧
      ¬ (start plainConfig).Ends [7] 0 2 endOfFile := by
  have idle := start_idle plainConfig
  have again (n : Nat) :
      (start plainConfig).arguments [7] 0 2 endOfFile (n + 1) = some (1, 1) := by
    induction n with
    | zero => exact arguments_succ idle 0 rfl
    | succ n ih => exact arguments_succ idle (n + 1) ih
  refine ⟨⟨0, fun n _ _ => ?_⟩, fun decreases => ?_, ?_⟩
  · cases n <;> simp [endOfFile]
  · have claimed := decreases 1 1 1 1 1 (again 0) (again 1)
    simp [endOfFile] at claimed
  · rintro ⟨n, after, reached, ended⟩
    have next := again n
    simp [arguments, reached, ended] at next

end Session

end KamaWebserver
