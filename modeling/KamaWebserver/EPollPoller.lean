import KamaWebserver.Basic
import Mathlib.Logic.Function.Basic
import Mathlib.Data.BitVec

set_option autoImplicit false

namespace KamaWebserver

/-- An epoll event mask, as the `int` and `uint32_t` fields hold it. -/
abbrev EventMask := BitVec 32

def EPOLLIN : EventMask := 0x001#32
def EPOLLPRI : EventMask := 0x002#32
def EPOLLOUT : EventMask := 0x004#32
def EPOLLERR : EventMask := 0x008#32
def EPOLLHUP : EventMask := 0x010#32
def EPOLLET : EventMask := 0x80000000#32

def kNoneEvent : EventMask := 0#32
def kReadEvent : EventMask := EPOLLIN ||| EPOLLPRI
def kWriteEvent : EventMask := EPOLLOUT

/-- `index_` of a channel: the constants kNew, kAdded and kDeleted. -/
inductive PollerIndex
  | kNew
  | kAdded
  | kDeleted
  deriving DecidableEq, Repr

/-- The parts of a channel the poller and the handlers read. `self` is its address. -/
structure Channel where
  self : Nat
  fd : Nat
  events : EventMask
  index : PollerIndex
  deriving DecidableEq, Repr

/-- `channels_`, and the kernel's interest list: what epoll holds for each
registered descriptor, with the pointer stored in `data.ptr`. -/
structure EPollPoller where
  channels : Nat → Option Nat
  interest : Nat → Option (EventMask × Nat)

inductive EpollOp
  | ctlAdd
  | ctlMod
  | ctlDel
  deriving DecidableEq, Repr

namespace Channel

/-- The constructor: no interest, not yet in a poller. -/
def create (self fd : Nat) : Channel := ⟨self, fd, kNoneEvent, .kNew⟩

def isNoneEvent (ch : Channel) : Bool := ch.events == kNoneEvent
def isWriting (ch : Channel) : Bool := ch.events &&& kWriteEvent != 0#32
def isReading (ch : Channel) : Bool := ch.events &&& kReadEvent != 0#32

/-- Sets the flag only; the next interest operation tells the poller. -/
def enableET (ch : Channel) : Channel := { ch with events := ch.events ||| EPOLLET }

theorem isWriting_eq (ch : Channel) : ch.isWriting = ch.events.getLsbD 2 := by
  have bit := BitVec.and_twoPow ch.events 2
  rw [show BitVec.twoPow 32 2 = kWriteEvent by decide] at bit
  rw [isWriting, bit]
  cases ch.events.getLsbD 2 <;> decide

theorem isReading_eq (ch : Channel) :
    ch.isReading = (ch.events.getLsbD 0 || ch.events.getLsbD 1) := by
  have first := BitVec.and_twoPow ch.events 0
  have second := BitVec.and_twoPow ch.events 1
  rw [show BitVec.twoPow 32 0 = EPOLLIN by decide] at first
  rw [show BitVec.twoPow 32 1 = EPOLLPRI by decide] at second
  rw [isReading, kReadEvent, BitVec.and_or_distrib_left, first, second]
  cases ch.events.getLsbD 0 <;> cases ch.events.getLsbD 1 <;> decide

end Channel

namespace EPollPoller

/-- A poller that watches nothing. -/
def create : EPollPoller := ⟨fun _ => none, fun _ => none⟩

/-- `::epoll_ctl`, which fails when it adds a registered descriptor or changes an
unregistered one. -/
def epollCtl (p : EPollPoller) (operation : EpollOp) (ch : Channel) : Option EPollPoller :=
  match operation, p.interest ch.fd with
  | .ctlAdd, none =>
      some { p with interest := Function.update p.interest ch.fd (some (ch.events, ch.self)) }
  | .ctlMod, some _ =>
      some { p with interest := Function.update p.interest ch.fd (some (ch.events, ch.self)) }
  | .ctlDel, some _ => some { p with interest := Function.update p.interest ch.fd none }
  | _, _ => none

/-- A failed DEL is logged; a failed ADD or MOD is LOG_FATAL, which aborts where OPEN_LOGGING
is defined. Without it LOG_FATAL is a bare `LogStream()` and the call goes on. -/
def update (p : EPollPoller) (operation : EpollOp) (ch : Channel) : Except Fault EPollPoller :=
  match p.epollCtl operation ch with
  | some after => .ok after
  | none => if operation = .ctlDel then .ok p else .error .abort

def updateChannel (p : EPollPoller) (ch : Channel) : Except Fault (EPollPoller × Channel) :=
  match ch.index with
  | .kNew => do
      let p := { p with channels := Function.update p.channels ch.fd (some ch.self) }
      let p ← p.update .ctlAdd { ch with index := .kAdded }
      return (p, { ch with index := .kAdded })
  | .kDeleted => do
      let p ← p.update .ctlAdd { ch with index := .kAdded }
      return (p, { ch with index := .kAdded })
  | .kAdded =>
      if ch.isNoneEvent then do
        let p ← p.update .ctlDel ch
        return (p, { ch with index := .kDeleted })
      else do
        let p ← p.update .ctlMod ch
        return (p, ch)

def removeChannel (p : EPollPoller) (ch : Channel) : Except Fault (EPollPoller × Channel) := do
  let p := { p with channels := Function.update p.channels ch.fd none }
  let p ← (if ch.index = .kAdded then p.update .ctlDel ch else pure p)
  return (p, { ch with index := .kNew })

/-- epoll holds the channel's descriptor exactly when the channel is kAdded. -/
def Agrees (p : EPollPoller) (ch : Channel) : Prop :=
  (p.interest ch.fd).isSome ↔ ch.index = .kAdded

variable {p : EPollPoller} {ch : Channel}

/-- An operation that matches what epoll holds succeeds. -/
theorem epollCtl_ok (p : EPollPoller) (ch : Channel) (operation : EpollOp)
    (matching : (p.interest ch.fd).isSome ↔ operation ≠ .ctlAdd) :
    ∃ after, p.epollCtl operation ch = some after ∧
      ((after.interest ch.fd).isSome ↔ operation ≠ .ctlDel) := by
  unfold epollCtl
  cases operation with
  | ctlAdd =>
      cases held : p.interest ch.fd with
      | none => simp
      | some mask => simp [held] at matching
  | ctlMod =>
      cases held : p.interest ch.fd with
      | none => simp [held] at matching
      | some mask => simp
  | ctlDel =>
      cases held : p.interest ch.fd with
      | none => simp [held] at matching
      | some mask => simp

/-- An update of a channel that agrees with epoll never fails, keeps the agreement
and writes only `index_`. -/
theorem updateChannel_ok (agrees : p.Agrees ch) :
    ∃ after next, p.updateChannel ch = .ok (after, next) ∧ after.Agrees next ∧
      next.events = ch.events := by
  unfold Agrees at agrees
  unfold updateChannel
  cases index : ch.index with
  | kNew =>
      have matching : (p.interest ch.fd).isSome ↔ EpollOp.ctlAdd ≠ .ctlAdd := by
        simp [agrees, index]
      obtain ⟨after, done, held⟩ := epollCtl_ok
        { p with channels := Function.update p.channels ch.fd (some ch.self) }
        { ch with index := .kAdded } .ctlAdd matching
      refine ⟨after, { ch with index := .kAdded }, ?_, ?_, rfl⟩
      · simp only [update, done]
        rfl
      · simpa [Agrees] using held
  | kDeleted =>
      have matching : (p.interest ch.fd).isSome ↔ EpollOp.ctlAdd ≠ .ctlAdd := by
        simp [agrees, index]
      obtain ⟨after, done, held⟩ := epollCtl_ok p { ch with index := .kAdded } .ctlAdd matching
      refine ⟨after, { ch with index := .kAdded }, ?_, ?_, rfl⟩
      · simp only [update, done]
        rfl
      · simpa [Agrees] using held
  | kAdded =>
      by_cases none : ch.isNoneEvent
      · obtain ⟨after, done, held⟩ := epollCtl_ok p ch .ctlDel
          (by simp [agrees, index])
        refine ⟨after, { ch with index := .kDeleted }, ?_, ?_, rfl⟩
        · simp only [none, ↓reduceIte, update, done]
          rfl
        · simpa [Agrees] using held
      · obtain ⟨after, done, held⟩ := epollCtl_ok p ch .ctlMod
          (by simp [agrees, index])
        refine ⟨after, ch, ?_, ?_, rfl⟩
        · simp only [none, Bool.false_eq_true, ↓reduceIte, update, done]
          rfl
        · simpa [Agrees, index] using held

/-- Removal leaves the mask in the channel and the descriptor outside epoll. -/
theorem removeChannel_ok (agrees : p.Agrees ch) :
    ∃ after next, p.removeChannel ch = .ok (after, next) ∧ after.Agrees next ∧
      next.events = ch.events := by
  unfold Agrees at agrees
  unfold removeChannel
  by_cases added : ch.index = .kAdded
  · obtain ⟨after, done, held⟩ := epollCtl_ok
      { p with channels := Function.update p.channels ch.fd none } ch .ctlDel
      (by simp [agrees, added])
    refine ⟨after, { ch with index := .kNew }, ?_, ?_, rfl⟩
    · simp only [added, ↓reduceIte, update, done]
      rfl
    · simpa [Agrees] using held
  · refine ⟨{ p with channels := Function.update p.channels ch.fd none },
      { ch with index := .kNew }, ?_, ?_, rfl⟩
    · simp only [added, ↓reduceIte]
      rfl
    · simp [Agrees, agrees, added]

end EPollPoller

end KamaWebserver
