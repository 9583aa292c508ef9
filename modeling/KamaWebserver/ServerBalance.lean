import KamaWebserver.LoopConfinement
import Mathlib.Data.Int.CardIntervalMod

set_option autoImplicit false

namespace KamaWebserver

open Outcome Transition

namespace TcpServer

variable {threads : Nat} {s after : TcpServer threads} {conn : Nat}

/-- The loop of a connection, if there is one of this number. -/
def loopOf (s : TcpServer threads) (conn : Nat) : Option (Loop threads) :=
  (s.objects conn).map ServerConn.loop

/-- How many connections `newConnection` has given to the loop. -/
def assigned (s : TcpServer threads) (loop : Loop threads) : Nat :=
  (List.range s.nextConnId).countP fun conn => s.loopOf conn = some loop

/-- No connection has come or changed its loop. -/
structure Steady (s after : TcpServer threads) : Prop where
  next : after.next = s.next
  nextConnId : after.nextConnId = s.nextConnId
  loopOf : ∀ conn, after.loopOf conn = s.loopOf conn

theorem Steady.trans {last : TcpServer threads} (one : s.Steady after) (two : after.Steady last) :
    s.Steady last :=
  ⟨two.next.trans one.next, two.nextConnId.trans one.nextConnId,
    fun conn => (two.loopOf conn).trans (one.loopOf conn)⟩

theorem steady_of_eq (next : after.next = s.next) (nextConnId : after.nextConnId = s.nextConnId)
    (objects : after.objects = s.objects) : s.Steady after :=
  ⟨next, nextConnId, fun conn => by rw [loopOf, objects, loopOf]⟩

theorem onConnection_steady {β : Type} {body : TcpConnection → Except Fault (TcpConnection × β)}
    {result : TcpServer threads × β} (ran : s.onConnection conn body = .ok result) :
    s.Steady result.1 := by
  cases there : s.objects conn with
  | none =>
      rw [onConnection, there] at ran
      cases ran
  | some object =>
      obtain ⟨c, -, same⟩ := onConnection_ok there ran
      rw [same]
      refine ⟨rfl, rfl, fun other => ?_⟩
      by_cases here : other = conn
      · subst here
        rw [loopOf, put_objects_self, loopOf, there]
        rfl
      · rw [loopOf, put_objects_of_ne here, loopOf]

theorem call_steady {functor : ServerFunctor} (ran : s.call functor = .ok after) :
    s.Steady after := by
  cases functor with
  | connectEstablished conn | connectDestroyed conn =>
      obtain ⟨result, called, returned⟩ := (bind_ok_iff _ _ _).mp ran
      cases returned
      exact onConnection_steady called
  | removeConnectionInLoop conn =>
      simp only [call, removeConnectionInLoop] at ran
      split at ran
      · cases ran
      · cases ran
        exact steady_of_eq rfl rfl rfl

theorem runInLoop_steady {caller loop : Loop threads} {functor : ServerFunctor}
    (ran : s.runInLoop caller loop functor = .ok after) : s.Steady after := by
  unfold runInLoop at ran
  split at ran
  · exact call_steady ran
  · cases ran
    exact steady_of_eq rfl rfl rfl

theorem runHandler_steady {loop : Loop threads} {read : ReadResult} {writes : List IoResult}
    (ran : s.runHandler loop read writes = .ok after) : s.Steady after := by
  unfold runHandler at ran
  split at ran
  · cases ran
  · rename_i conn handler rest waiting
    obtain ⟨⟨middle, again⟩, called, rest'⟩ := (bind_ok_iff _ _ _).mp ran
    let left : TcpServer threads := { middle with
      handlers := Function.update s.handlers loop
        (if again then (conn, handler) :: rest else rest) }
    have moved : middle.Steady left := steady_of_eq rfl rfl rfl
    have steady : s.Steady left := (onConnection_steady called).trans moved
    change (if left.closes conn = s.closes conn then .ok left
      else left.removeConnection conn loop) = .ok after at rest'
    split at rest'
    · rw [← Except.ok.inj rest']
      exact steady
    · exact steady.trans (runInLoop_steady rest')

theorem step_steady {event : ServerEvent threads} (noAccept : accepts event = 0)
    (taken : s.step event = .ok after) : s.Steady after := by
  cases event with
  | accept fd => cases noAccept
  | handleEvent loop fd revents =>
      simp only [step] at taken
      split at taken
      · cases taken
      · obtain ⟨-, returned⟩ := guard_ok taken
        cases returned
        exact steady_of_eq rfl rfl rfl
  | runHandler loop read writes => exact runHandler_steady taken
  | retrieve loop len =>
      simp only [step] at taken
      split at taken
      · cases taken
      · obtain ⟨result, ran, returned⟩ := (bind_ok_iff _ _ _).mp taken
        cases returned
        exact onConnection_steady ran
  | swapFunctors loop | endFunctors loop =>
      obtain ⟨-, returned⟩ := guard_ok taken
      cases returned
      exact steady_of_eq rfl rfl rfl
  | runFunctor loop =>
      obtain ⟨-, ran⟩ := guard_ok taken
      simp only [runFunctor] at ran
      split at ran
      · cases ran
      · rename_i functor queue next
        let middle : TcpServer threads := { s with queues := Function.update s.queues loop queue }
        have steady : middle.Steady after := call_steady ran
        exact ⟨steady.next, steady.nextConnId, steady.loopOf⟩

/-- The number of the loop the connection goes to. -/
def turnOf (threads conn : Nat) : Nat := if threads = 0 then 0 else (conn - 1) % threads + 1

/-- `next_` and the loops of the connections follow from how many there were. -/
structure Rotates (s : TcpServer threads) : Prop where
  first : 1 ≤ s.nextConnId
  next : s.next = if threads = 0 then 0 else (s.nextConnId - 1) % threads
  given : ∀ conn, 1 ≤ conn → conn < s.nextConnId →
    (s.loopOf conn).map Fin.val = some (turnOf threads conn)
  fresh : ∀ conn, conn = 0 ∨ s.nextConnId ≤ conn → s.loopOf conn = none

theorem Rotates.steady (rotates : s.Rotates) (steady : s.Steady after) : after.Rotates := by
  obtain ⟨first, next, given, fresh⟩ := rotates
  refine ⟨?_, ?_, ?_, ?_⟩
  · rw [steady.nextConnId]
    exact first
  · rw [steady.next, steady.nextConnId]
    exact next
  · rw [steady.nextConnId]
    intro conn
    rw [steady.loopOf]
    exact given conn
  · rw [steady.nextConnId]
    intro conn
    rw [steady.loopOf]
    exact fresh conn

theorem getNextLoop_rotates (rotates : s.Rotates) :
    s.getNextLoop.1.val = turnOf threads s.nextConnId ∧
      s.getNextLoop.2 = if threads = 0 then 0 else s.nextConnId % threads := by
  have next := rotates.next
  have first := rotates.first
  unfold getNextLoop turnOf
  by_cases none : threads = 0
  · subst none
    simp only [if_true] at next ⊢
    rw [dif_neg (Nat.not_lt_zero _)]
    exact ⟨rfl, next⟩
  · rw [if_neg none] at next
    have inside : s.next < threads := next ▸ Nat.mod_lt _ (Nat.pos_of_ne_zero none)
    rw [dif_pos inside, if_neg none, if_neg none, ← next]
    refine ⟨rfl, ?_⟩
    obtain ⟨id, same⟩ : ∃ id, s.nextConnId = id + 1 := ⟨s.nextConnId - 1, by omega⟩
    rw [same, Nat.add_sub_cancel] at next
    have wraps : s.nextConnId % threads = (s.next + 1) % threads := by
      rw [same, next, Nat.mod_add_mod]
    rw [wraps]
    by_cases last : threads ≤ s.next + 1
    · have all : s.next + 1 = threads := Nat.le_antisymm inside last
      rw [if_pos last]
      exact (congrArg (· % threads) all).trans (Nat.mod_self threads) |>.symm
    · rw [if_neg last, Nat.mod_eq_of_lt (Nat.lt_of_not_le last)]

/-- An accept gives its connection to the loop whose turn it is. -/
theorem accept_rotates (rotates : s.Rotates) {fd : Nat} (ran : s.newConnection fd = .ok after) :
    after.Rotates := by
  obtain ⟨-, called⟩ := guard_ok ran
  let object : ServerConn threads := ⟨connName s.name s.ipPort s.nextConnId, s.getNextLoop.1,
    TcpConnection.create s.nextConnId fd (64 * 1024 * 1024) s.writeCompleteCallback false⟩
  let middle := s.inserted object s.getNextLoop.2
  change middle.runInLoop (baseLoop threads) object.loop (.connectEstablished s.nextConnId) =
    .ok after at called
  obtain ⟨turn, next⟩ := getNextLoop_rotates rotates
  have self : middle.loopOf s.nextConnId = some s.getNextLoop.1 := by
    rw [loopOf, show middle.objects s.nextConnId = some object from Function.update_self ..]
    rfl
  have others : ∀ conn ≠ s.nextConnId, middle.loopOf conn = s.loopOf conn := by
    intro conn differ
    rw [loopOf, show middle.objects conn = s.objects conn from Function.update_of_ne differ ..,
      loopOf]
  have inserted : middle.Rotates := by
    refine ⟨Nat.le_add_left .., ?_, fun conn one below => ?_, fun conn outside => ?_⟩
    · exact next
    · by_cases new : conn = s.nextConnId
      · rw [new, self, Option.map_some, turn]
      · rw [others conn new]
        have earlier : conn < s.nextConnId + 1 := below
        exact rotates.given conn one (by omega)
    · have past : conn = 0 ∨ s.nextConnId + 1 ≤ conn := outside
      have first := rotates.first
      rw [others conn (by omega)]
      exact rotates.fresh conn (by omega)
  exact inserted.steady (runInLoop_steady called)

theorem rotates_create (config : ServerConfig) : (create threads config).Rotates := by
  refine ⟨Nat.le_refl 1, ?_, fun conn one below => ?_, fun conn _ => rfl⟩
  · show 0 = if threads = 0 then 0 else 0 % threads
    rw [Nat.zero_mod, ite_self]
  · have none : conn < 1 := below
    omega

theorem step_rotates {event : ServerEvent threads} (rotates : s.Rotates)
    (taken : s.step event = .ok after) : after.Rotates := by
  cases event with
  | accept fd => exact accept_rotates rotates (guard_ok taken).2
  | handleEvent | runHandler | retrieve | swapFunctors | runFunctor | endFunctors =>
      exact rotates.steady (step_steady rfl taken)

theorem countP_range_mod (threads turn count : Nat) (inside : turn < threads) :
    (List.range count).countP (fun conn => conn % threads = turn) =
      count / threads + if turn < count % threads then 1 else 0 := by
  have counted : (List.range count).countP (fun conn => conn % threads = turn) =
      count.count (· ≡ turn [MOD threads]) := by
    induction count with
    | zero => rfl
    | succ count ih =>
        rw [List.range_succ, List.countP_append, ih, Nat.count_succ, List.countP_singleton]
        simp only [Nat.ModEq, Nat.mod_eq_of_lt inside, decide_eq_true_eq]
  have mod := Nat.count_modEq_card count (Nat.zero_lt_of_lt inside) turn
  rw [Nat.mod_eq_of_lt inside] at mod
  rw [counted, mod]

/-- Up to the last round every loop of the pool has been given the same number. -/
theorem Rotates.assigned_eq (rotates : s.Rotates) {loop : Loop threads}
    (pool : loop ≠ baseLoop threads) :
    s.assigned loop = (s.nextConnId - 1) / threads +
      if loop.val - 1 < (s.nextConnId - 1) % threads then 1 else 0 := by
  have positive : 0 < loop.val := Nat.pos_of_ne_zero fun zero => pool (Fin.ext zero)
  have below := loop.isLt
  obtain ⟨count, same⟩ : ∃ count, s.nextConnId = count + 1 :=
    ⟨s.nextConnId - 1, (Nat.sub_add_cancel rotates.first).symm⟩
  rw [assigned, same, Nat.add_sub_cancel, ← countP_range_mod threads _ count (by omega),
    List.range_succ_eq_map, List.countP_cons, List.countP_map]
  have zero : s.loopOf 0 = none := rotates.fresh 0 (.inl rfl)
  rw [zero]
  refine List.countP_congr fun conn inside => ?_
  rw [List.mem_range] at inside
  have given := rotates.given (conn + 1) (by omega) (by omega)
  obtain ⟨home, found, turn⟩ := Option.map_eq_some_iff.mp given
  rw [turnOf, if_neg (by omega), Nat.add_sub_cancel] at turn
  simp only [Function.comp, found, Option.some.injEq, decide_eq_true_eq, Fin.ext_iff]
  omega

/-- Connections go round the loops of the pool in the order of their accepts, so of any two loops
neither is ever given more than one connection more than the other; with a pool the base loop gets
none, without one it gets all. -/
theorem connections_balanced (config : ServerConfig) (events : List (ServerEvent threads))
    (reached : run step (create threads config) events = .ok s) :
    (∀ conn object, s.objects conn = some object →
      object.loop.val = if threads = 0 then 0 else (conn - 1) % threads + 1) ∧
    ∀ one two : Loop threads, one ≠ baseLoop threads → two ≠ baseLoop threads →
      s.assigned one ≤ s.assigned two + 1 := by
  have rotates : s.Rotates := Reachable.preserves Rotates
    (fun _ _ _ rotates taken => step_rotates rotates taken) (rotates_create config)
    ⟨events, reached⟩
  constructor
  · intro conn object there
    have home : s.loopOf conn = some object.loop := by
      rw [loopOf, there]
      rfl
    by_cases outside : conn = 0 ∨ s.nextConnId ≤ conn
    · rw [rotates.fresh conn outside] at home
      cases home
    · have given := rotates.given conn (by omega) (by omega)
      rw [home] at given
      exact Option.some.inj given
  · intro one two poolOne poolTwo
    rw [rotates.assigned_eq poolOne, rotates.assigned_eq poolTwo]
    split <;> split <;> omega

/-- Three connections on a pool of two. -/
theorem connections_balanced_three :
    ∃ s : TcpServer 2, run step (create 2 ⟨"Echo", ⟨(127, 0, 0, 1), 8080⟩, false⟩)
        [.accept 5, .accept 6, .accept 7] = .ok s ∧ s.assigned 1 ≤ s.assigned 2 + 1 :=
  ⟨_, rfl, (connections_balanced ⟨"Echo", ⟨(127, 0, 0, 1), 8080⟩, false⟩
    [.accept 5, .accept 6, .accept 7] rfl).2 1 2 (by decide) (by decide)⟩

end TcpServer

end KamaWebserver
