import KamaWebserver.Library.Storage
import KamaWebserver.Session

set_option autoImplicit false

namespace KamaWebserver

open Outcome Transition

/-- What `std::bind` keeps of a string: `buf.c_str()` and `buf.size()`. -/
structure BoundSend where
  data : Nat
  len : Nat
  deriving DecidableEq

/-- A session whose queued sends hold pointers. `bound` lists those of the `sendInLoop`
functors waiting in the loop, in their order; the session's own functors remember what each
string held when `send` was called. `processed` pairs that with what `sendInLoop` was given,
which is nothing when the storage had been given back. -/
structure SendCapture where
  session : Session
  memory : Nat → Option UInt8
  bound : List BoundSend
  processed : List (ByteString × Option ByteString)

/-- A step of the session, with the pointer bound if the step queues a send, or a change
of one byte of memory by the application: it stores a byte, or gives the storage back. -/
inductive CaptureEvent
  | session (event : SessionEvent) (bound : BoundSend)
  | store (address : Nat) (value : Option UInt8)

namespace Functor

/-- The string of a `sendInLoop` functor. -/
def sending : Functor → Option ByteString
  | .sendInLoop data => some data
  | _ => none

/-- The strings of the `sendInLoop` functors in a queue. -/
def sends (functors : List Functor) : List ByteString := functors.filterMap sending

@[simp] theorem sends_append (first second : List Functor) :
    sends (first ++ second) = sends first ++ sends second := List.filterMap_append

@[simp] theorem sends_cons (functor : Functor) (functors : List Functor) :
    sends (functor :: functors) = functor.sending.toList ++ sends functors := by
  cases functor <;> simp [sends, sending, List.filterMap_cons]

/-- The sending functions queue no sends of their own. -/
theorem sends_of_output {functors : List Functor}
    (own : ∀ functor ∈ functors, functor.isOutput = true) : sends functors = [] := by
  apply List.filterMap_eq_nil_iff.mpr
  intro functor inside
  have output := own functor inside
  cases functor with
  | sendInLoop data => cases output
  | _ => rfl

end Functor

/-- The string of a call of `send` that is about to queue its functor. -/
def UserCall.sending : UserCall → Option ByteString
  | .queueSend data => some data
  | _ => none

namespace Session

/-- The string whose functor the event queues. -/
def queued (s : Session) : SessionEvent → Option ByteString
  | .advance index => s.calls[index]?.bind UserCall.sending
  | .sendFile _ _ _ _ (some index) =>
      if s.conn.connected then s.calls[index]?.bind UserCall.sending else none
  | _ => none

/-- The string of the functor the event runs. -/
def executed (s : Session) : SessionEvent → Option ByteString
  | .runFunctor _ => s.conn.functors.head?.bind Functor.sending
  | _ => none

end Session

namespace SendCapture

/-- The bytes a bound pointer and length stand for at this moment. -/
def read (memory : Nat → Option UInt8) (bound : BoundSend) : Option ByteString :=
  match Storage.load memory bound.data bound.len with
  | none => none
  | some bytes => if bounded : bytes.length ≤ maxSize then some ⟨bytes, bounded⟩ else none

/-- The session whose next functor holds these bytes. -/
def withData (s : Session) (data : ByteString) : Session :=
  { s with conn := s.conn.setBatch (.sendInLoop data :: s.conn.functors.tail) }

/-- The session whose next functor is gone. -/
def dropFunctor (s : Session) : Session :=
  { s with conn := s.conn.setBatch s.conn.functors.tail }

/-- Run a `sendInLoop` functor: it reads the memory as it is now. -/
def runSend (s : SendCapture) (event : SessionEvent) (sent : ByteString) :
    Except Fault SendCapture :=
  match s.bound with
  | [] => .error .notEnabled
  | next :: bound =>
      let data := read s.memory next
      let s := { s with bound, processed := s.processed ++ [(sent, data)] }
      match data with
      | none => .ok { s with session := dropFunctor s.session }
      | some data => do
          let session ← (withData s.session data).step event
          return { s with session }

def step (s : SendCapture) : CaptureEvent → Except Fault SendCapture
  | .store address value => .ok { s with memory := Function.update s.memory address value }
  | .session event bound =>
      match s.session.executed event with
      | some sent => s.runSend event sent
      | none => do
          let session ← s.session.step event
          match s.session.queued event with
          | none => return { s with session }
          | some sent =>
              if read s.memory bound = some sent then
                return { s with session, bound := s.bound ++ [bound] }
              else .error .notEnabled

/-- An established connection, with memory in any state. -/
def start (config : Session.Config) (memory : Nat → Option UInt8) : SendCapture :=
  ⟨Session.start config, memory, [], []⟩

end SendCapture

namespace TcpConnection

/-- The strings of the sends waiting in the loop, in the order of their functors. -/
def waiting (c : TcpConnection) : List ByteString :=
  Functor.sends (c.functors ++ c.pendingFunctors)

variable {c after : TcpConnection}

/-- What runs adds no send to those that wait. -/
theorem Runs.waiting (runs : c.Runs after) : after.waiting = c.waiting := by
  obtain ⟨added, queued, own⟩ := runs.pending
  simp only [TcpConnection.waiting, runs.functors, queued, Functor.sends_append,
    Functor.sends_of_output own, List.append_nil]

theorem waiting_queueInLoop (c : TcpConnection) (functor : Functor) :
    (c.queueInLoop functor).waiting = c.waiting ++ functor.sending.toList := by
  have none : Functor.sends [] = [] := rfl
  simp [waiting, queueInLoop, none]

end TcpConnection

namespace Session

variable {s after : Session}

theorem advance_waiting {index : Nat} (taken : s.advance index = .ok after) :
    after.conn.waiting =
      s.conn.waiting ++ (s.calls[index]?.bind UserCall.sending).toList := by
  obtain ⟨call, found, rfl⟩ := advance_ok taken
  rw [found]
  cases call with
  | queueSend data => exact TcpConnection.waiting_queueInLoop _ _
  | queueSendFile file offset count => exact TcpConnection.waiting_queueInLoop _ _
  | storeDisconnecting => exact (List.append_nil _).symm
  | queueShutdown => exact TcpConnection.waiting_queueInLoop _ _

/-- Each step takes the send it runs off the front and puts the send it queues at the back. -/
theorem step_waiting {event : SessionEvent} (sound : s.conn.Sound)
    (taken : s.step event = .ok after) :
    (s.executed event).toList ++ after.conn.waiting =
      s.conn.waiting ++ (s.queued event).toList := by
  have kept : ∀ c : TcpConnection, c.waiting = s.conn.waiting →
      [] ++ c.waiting = s.conn.waiting ++ [] := by
    intro c same
    rw [List.nil_append, List.append_nil, same]
  cases step_inv taken with
  | handleEvent revents idle between seen => exact kept _ rfl
  | handleClose rest conn waiting closed =>
      exact kept _ (TcpConnection.handleClose_runs sound closed).waiting
  | handleError rest conn waiting closed =>
      exact kept _ (TcpConnection.handleClose_runs sound closed).waiting
  | handleRead result rest conn again waiting read =>
      exact kept _ (TcpConnection.readOnce_runs sound read).waiting
  | handleWrite results rest conn waiting wrote =>
      exact kept _ (TcpConnection.handleWrite_runs sound wrote).waiting
  | doPendingFunctors idle between =>
      apply kept
      simp [TcpConnection.waiting, TcpConnection.swapFunctors, between]
  | runFunctor result functor functors conn batch ran =>
      have popped := (TcpConnection.runFunctor_runs (sound.setBatch functors) ran).waiting
      simp only [executed, queued, batch, List.head?_cons, Option.bind_some, Option.toList_none,
        List.append_nil, popped]
      simp [TcpConnection.waiting, TcpConnection.setBatch, batch]
  | retrieve len => exact kept _ rfl
  | send data result conn up ran =>
      exact kept _ (TcpConnection.sendInLoop_runs (sound.emit (.accept data.bytes)) ran).waiting
  | sendRefused data result down => exact kept _ rfl
  | sendFile file offset count result between middle up other =>
      have ran := (TcpConnection.sendFileInLoop_runs
        (interleave_sound (accept_sound sound _) other) file offset count result).waiting
      cases between with
      | none =>
          cases other
          exact kept _ ran
      | some index =>
          have moved := advance_waiting other
          simp only [executed, queued, TcpConnection.connected, up, decide_true, ↓reduceIte,
            Option.toList_none, List.nil_append, ran, moved]
          rfl
  | sendFileRefused file offset count result between down =>
      cases between with
      | none => exact kept _ rfl
      | some index =>
          simp only [executed, queued, TcpConnection.connected, down, decide_false,
            Bool.false_eq_true, ↓reduceIte, Option.toList_none]
          exact kept _ rfl
  | shutdown up =>
      exact kept _ (TcpConnection.shutdownInLoop_extends (sound.setState _)).runs.waiting
  | shutdownRefused down => exact kept _ rfl
  | other call up first =>
      apply kept
      cases call <;> rfl
  | advance index _ moved =>
      simp only [executed, queued, Option.toList_none, List.nil_append, advance_waiting moved]
  | storeOverwritten index found down => exact kept _ rfl
  | removeConnectionInLoop closed =>
      exact kept _ (by simp [TcpConnection.waiting_queueInLoop, Functor.sending])
  | destroyHere conn tabled idle ran =>
      exact kept _ (TcpConnection.connectDestroyed_runs sound ran).waiting
  | destroyElsewhere tabled =>
      exact kept _ (by simp [TcpConnection.waiting_queueInLoop, Functor.sending])

end Session

namespace SendCapture

/-- The application changes no byte of a string whose functor has not run. -/
def Undisturbed (s : SendCapture) : CaptureEvent → Prop
  | .store address value =>
      ∀ next ∈ s.bound, next.data ≤ address → address < next.data + next.len →
        s.memory address = value
  | .session _ _ => True

instance (s : SendCapture) : ∀ event, Decidable (s.Undisturbed event)
  | .store address value =>
      inferInstanceAs (Decidable (∀ next ∈ s.bound, next.data ≤ address →
        address < next.data + next.len → s.memory address = value))
  | .session _ _ => isTrue trivial

/-- `sendInLoop` was given exactly what each string held when `send` was called. -/
def Intact (s : SendCapture) : Prop := ∀ send ∈ s.processed, send.2 = some send.1

/-- The waiting functors still point to what their strings held. -/
structure Held (s : SendCapture) : Prop where
  sound : s.session.conn.Sound
  pointers : s.bound.map (read s.memory) = s.session.conn.waiting.map some
  intact : s.Intact

variable {s after : SendCapture}

theorem read_update {memory : Nat → Option UInt8} {next : BoundSend} {address : Nat}
    {value : Option UInt8}
    (kept : next.data ≤ address → address < next.data + next.len → memory address = value) :
    read (Function.update memory address value) next = read memory next := by
  simp only [read, Storage.load_update memory kept]

/-- The functor that runs is the first of those waiting, and queues no send. -/
theorem executed_waiting {session : Session} {event : SessionEvent} {sent : ByteString}
    (runs : session.executed event = some sent) :
    withData session sent = session ∧ session.queued event = none ∧
      ∃ rest, session.conn.waiting = sent :: rest := by
  cases event with
  | runFunctor result =>
      simp only [Session.executed] at runs
      cases batch : session.conn.functors with
      | nil => simp [batch] at runs
      | cons functor functors =>
          simp only [batch, List.head?_cons, Option.bind_some] at runs
          cases functor with
          | sendInLoop data =>
              cases runs
              refine ⟨?_, rfl, Functor.sends (functors ++ session.conn.pendingFunctors), ?_⟩
              · simp only [withData, TcpConnection.setBatch, batch, List.tail_cons]
                rw [← batch]
              · simp [TcpConnection.waiting, batch, Functor.sending]
          | _ => cases runs
  | _ => cases runs

/-- Under the condition a step is one of the session whose queue holds the bytes
themselves, and it keeps the pointers in order. -/
theorem step_held {event : CaptureEvent} (held : s.Held) (quiet : s.Undisturbed event)
    (taken : s.step event = .ok after) :
    after.Held ∧ match event with
      | .session event _ => s.session.step event = .ok after.session
      | .store _ _ => after.session = s.session := by
  obtain ⟨sound, pointers, intact⟩ := held
  cases event with
  | store address value =>
      cases taken
      refine ⟨⟨sound, ?_, intact⟩, rfl⟩
      rw [← pointers]
      apply List.map_congr_left
      intro next waiting
      exact read_update (quiet next waiting)
  | session event bound =>
      simp only [step] at taken
      cases runs : s.session.executed event with
      | some sent =>
          obtain ⟨same, silent, rest, waits⟩ := executed_waiting runs
          simp only [runs, runSend] at taken
          cases front : s.bound with
          | nil => simp [front] at taken
          | cons next others =>
              rw [front, waits, List.map_cons, List.map_cons, List.cons.injEq] at pointers
              obtain ⟨reads, behind⟩ := pointers
              simp only [front, reads, same] at taken
              obtain ⟨session, ran, returned⟩ := (bind_ok_iff _ _ _).mp taken
              cases returned
              have moved := Session.step_waiting sound ran
              rw [runs, silent, waits] at moved
              simp only [Option.toList_some, Option.toList_none, List.append_nil,
                List.singleton_append, List.cons.injEq, true_and] at moved
              refine ⟨⟨Session.step_sound sound ran, by rw [moved]; exact behind, ?_⟩, ran⟩
              intro send inside
              rcases List.mem_append.mp inside with old | new
              · exact intact send old
              · rw [List.mem_singleton] at new
                subst new
                rfl
      | none =>
          simp only [runs] at taken
          obtain ⟨session, ran, returned⟩ := (bind_ok_iff _ _ _).mp taken
          have moved := Session.step_waiting sound ran
          simp only [runs, Option.toList_none, List.nil_append] at moved
          cases queues : s.session.queued event with
          | none =>
              simp only [queues, Option.toList_none, List.append_nil] at returned moved
              cases returned
              exact ⟨⟨Session.step_sound sound ran, by rw [moved]; exact pointers, intact⟩, ran⟩
          | some sent =>
              simp only [queues, Option.toList_some] at returned moved
              split at returned
              · rename_i holds
                cases returned
                refine ⟨⟨Session.step_sound sound ran, ?_, intact⟩, ran⟩
                simp only [List.map_append, List.map_singleton, pointers, holds, moved]
              · cases returned

theorem start_held (config : Session.Config) (memory : Nat → Option UInt8) :
    (start config memory).Held :=
  ⟨Session.established_sound config, rfl, nofun⟩

/-- The steps of the session among the events. -/
def sessionEvents (events : List CaptureEvent) : List SessionEvent :=
  events.filterMap fun event =>
    match event with
    | .session event _ => some event
    | .store _ _ => none

/-- Where no waiting string is changed, the code runs as the session whose queued sends
hold their bytes. -/
theorem run_session (config : Session.Config) (memory : Nat → Option UInt8)
    (events : List CaptureEvent) (s : SendCapture)
    (quiet : Guarded step Undisturbed (start config memory) events)
    (reached : run step (start config memory) events = .ok s) :
    run Session.step (Session.start config) (sessionEvents events) = .ok s.session := by
  have simulates : ∀ (events : List CaptureEvent) (first : SendCapture), first.Held →
      Guarded step Undisturbed first events → run step first events = .ok s →
      run Session.step first.session (sessionEvents events) = .ok s.session := by
    intro events
    induction events with
    | nil =>
        intro first _ _ ends
        cases ends
        rfl
    | cons event events ih =>
        intro first held quiet ends
        obtain ⟨next, taken, rest⟩ := (run_cons_ok_iff _ _ _ _).mp ends
        rw [guarded_cons_of_ok taken] at quiet
        obtain ⟨after, moved⟩ := step_held held quiet.1 taken
        have later := ih next after quiet.2 rest
        cases event with
        | store address value =>
            rw [← moved]
            exact later
        | session event bound =>
            exact (run_cons_ok_iff _ _ _ _).mpr ⟨next.session, moved, later⟩
  exact simulates events _ (start_held config memory) quiet reached

/-- In every run in which the application changes no byte of a string between the call of
`send` and the run of its functor, `sendInLoop` is given what each string held. -/
theorem processed_intact (config : Session.Config) (memory : Nat → Option UInt8)
    (events : List CaptureEvent) (s : SendCapture)
    (quiet : Guarded step Undisturbed (start config memory) events)
    (reached : run step (start config memory) events = .ok s) : s.Intact :=
  (run_preserves Held (fun _ _ _ held quiet taken => (step_held held quiet taken).1)
    (start_held config memory) quiet reached).intact

/-- Four bytes of memory, of which a string holds the first two. -/
def plainMemory (address : Nat) : Option UInt8 := [1, 2, 3, 4][address]?

/-- A send from another thread; the caller then changes the storage behind the string. -/
def sendThenStore (address : Nat) : List CaptureEvent :=
  [.session (.other (.queueSend ⟨[1, 2], by decide⟩)) ⟨0, 0⟩,
    .session (.advance 0) ⟨0, 2⟩, .store address (some 9), .session .doPendingFunctors ⟨0, 0⟩,
    .session (.runFunctor (.count 2)) ⟨0, 0⟩]

theorem processed_intact_behind :
    ∃ s, run step (start Session.plainConfig plainMemory) (sendThenStore 2) = .ok s ∧
      s.processed.length = 1 ∧ s.Intact := by
  obtain ⟨s, reached, processed⟩ := (map_ok_iff _ _ _).mp
    (show (run step (start Session.plainConfig plainMemory) (sendThenStore 2)).map
      (fun s => s.processed.length) = .ok 1 by decide +kernel)
  exact ⟨s, reached, processed,
    processed_intact Session.plainConfig plainMemory _ s (by decide +kernel) reached⟩

/-- The caller overwrites the second byte before the functor runs: the new byte is sent. -/
theorem overwritten_not_intact :
    ¬ ∀ (config : Session.Config) (memory : Nat → Option UInt8) (events : List CaptureEvent)
      (s : SendCapture), run step (start config memory) events = .ok s → s.Intact := by
  intro always
  obtain ⟨s, reached, processed⟩ := (map_ok_iff _ _ _).mp
    (show (run step (start Session.plainConfig plainMemory) (sendThenStore 1)).map
      (fun s => s.processed) =
        .ok [(⟨[1, 2], by decide⟩, some ⟨[1, 9], by decide⟩)] by decide +kernel)
  have intact := always Session.plainConfig plainMemory _ s reached
  unfold Intact at intact
  rw [processed] at intact
  have wrong := intact _ List.mem_cons_self
  simp at wrong

end SendCapture

end KamaWebserver
