import Mathlib.Tactic.Common

set_option autoImplicit false

/-- A first-in first-out queue with its history. The balance of what went in
against what came out and what is still inside is part of the value. -/
structure Fifo (α : Type*) where
  consumed : List α
  content : List α
  received : List α
  balanced : consumed ++ content = received

namespace Fifo

variable {α : Type*}

/-- The queue nothing has been put into. -/
def empty : Fifo α := ⟨[], [], [], rfl⟩

def push (queue : Fifo α) (data : List α) : Fifo α where
  consumed := queue.consumed
  content := queue.content ++ data
  received := queue.received ++ data
  balanced := by rw [← List.append_assoc, queue.balanced]

/-- Take up to `count` elements from the front. -/
def pop (queue : Fifo α) (count : Nat) : Fifo α where
  consumed := queue.consumed ++ queue.content.take count
  content := queue.content.drop count
  received := queue.received
  balanced := by rw [List.append_assoc, List.take_append_drop, queue.balanced]

@[simp] theorem push_content (queue : Fifo α) (data : List α) :
    (queue.push data).content = queue.content ++ data := rfl

@[simp] theorem push_received (queue : Fifo α) (data : List α) :
    (queue.push data).received = queue.received ++ data := rfl

@[simp] theorem pop_consumed (queue : Fifo α) (count : Nat) :
    (queue.pop count).consumed = queue.consumed ++ queue.content.take count := rfl

@[simp] theorem pop_content (queue : Fifo α) (count : Nat) :
    (queue.pop count).content = queue.content.drop count := rfl

/-- What has come out is always an initial part of what has gone in. -/
theorem consumed_prefix (queue : Fifo α) : queue.consumed <+: queue.received :=
  ⟨queue.content, queue.balanced⟩

end Fifo
