import Mathlib.Tactic.Common

set_option autoImplicit false

/-- A queue whose reader swaps out all that is pending and then works through that batch.
The batch is kept whole, with what has run in front, until its end. -/
structure BatchQueue (α : Type*) where
  pending : List α
  batch : List α
  ran : List α

namespace BatchQueue

variable {α : Type*}

def empty : BatchQueue α := ⟨[], [], []⟩

/-- All that is in the queue's storage, in the order it was pushed. -/
def content (queue : BatchQueue α) : List α := queue.ran ++ queue.batch ++ queue.pending

/-- What has not run. -/
def waiting (queue : BatchQueue α) : List α := queue.batch ++ queue.pending

/-- The reader is between two batches. -/
def Between (queue : BatchQueue α) : Prop := queue.batch = [] ∧ queue.ran = []

instance (queue : BatchQueue α) : Decidable queue.Between :=
  inferInstanceAs (Decidable (queue.batch = [] ∧ queue.ran = []))

def push (queue : BatchQueue α) (values : List α) : BatchQueue α :=
  { queue with pending := queue.pending ++ values }

def swap (queue : BatchQueue α) : BatchQueue α := ⟨[], queue.pending, []⟩

/-- The next element of the batch has run. -/
def next (queue : BatchQueue α) : Option (α × BatchQueue α) :=
  match queue.batch with
  | [] => none
  | value :: batch => some (value, { queue with batch, ran := queue.ran ++ [value] })

/-- The batch is destroyed. -/
def finish (queue : BatchQueue α) : BatchQueue α := { queue with ran := [] }

variable {queue rest : BatchQueue α} {value : α}

@[simp] theorem push_nil (queue : BatchQueue α) : queue.push [] = queue := by
  rw [push, List.append_nil]

theorem next_eq_some (taken : queue.next = some (value, rest)) :
    queue.batch = value :: rest.batch ∧
      rest = { queue with batch := rest.batch, ran := queue.ran ++ [value] } := by
  unfold next at taken
  cases front : queue.batch with
  | nil => simp [front] at taken
  | cons first batch =>
      simp only [front, Option.some.injEq, Prod.mk.injEq] at taken
      obtain ⟨rfl, rfl⟩ := taken
      exact ⟨rfl, rfl⟩

/-- Running an element moves it within the storage. -/
theorem next_content (taken : queue.next = some (value, rest)) : rest.content = queue.content := by
  obtain ⟨front, same⟩ := next_eq_some taken
  rw [same]
  simp [content, front]

theorem mem_content_of_waiting (inside : value ∈ queue.waiting) : value ∈ queue.content := by
  rw [content, List.append_assoc]
  exact List.mem_append_right queue.ran inside

theorem next_waiting (taken : queue.next = some (value, rest)) :
    queue.waiting = value :: rest.waiting := by
  obtain ⟨front, same⟩ := next_eq_some taken
  rw [same]
  simp [waiting, front]

theorem push_content (queue : BatchQueue α) (values : List α) :
    (queue.push values).content = queue.content ++ values := by
  simp [push, content]

theorem push_waiting (queue : BatchQueue α) (values : List α) :
    (queue.push values).waiting = queue.waiting ++ values := by
  simp [push, waiting]

theorem swap_content (between : queue.Between) : queue.swap.content = queue.content := by
  simp [swap, content, between.1, between.2]

theorem swap_waiting (between : queue.Between) : queue.swap.waiting = queue.waiting := by
  simp [swap, waiting, between.1]

end BatchQueue
