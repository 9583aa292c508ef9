import Mathlib.Tactic.Common

set_option autoImplicit false

/-- Items that pass in chunks from the chunk being filled to the queue, from there in a batch to
the chunk being stored, and with it to the closed ones. Chunks are joined, never cut. -/
structure Stages (α : Type*) where
  closed : List (List α)
  opened : Option (List α)
  batch : List (List α)
  queued : List (List α)
  current : List α

namespace Stages

variable {α : Type*}

def empty : Stages α := ⟨[], none, [], [], []⟩

def stored (stages : Stages α) : List (List α) := stages.closed ++ stages.opened.toList

/-- All the items, the oldest first. -/
def all (stages : Stages α) : List α :=
  stages.stored.flatten ++ stages.batch.flatten ++ stages.queued.flatten ++ stages.current

def push (stages : Stages α) (item : α) : Stages α :=
  { stages with current := stages.current ++ [item] }

/-- The chunk that was filled is queued. -/
def rotate (stages : Stages α) : Stages α :=
  { stages with queued := stages.queued ++ [stages.current], current := [] }

/-- All that is queued becomes the batch. -/
def collect (stages : Stages α) : Stages α :=
  { stages with batch := stages.queued ++ [stages.current], queued := [], current := [] }

/-- A first chunk to store to. -/
def start (stages : Stages α) : Stages α := { stages with opened := some [] }

/-- The first chunk of the batch goes behind what the open one holds. -/
def store (stages : Stages α) : Stages α :=
  { stages with
    opened := stages.opened.map (· ++ stages.batch.headD [])
    batch := stages.batch.tail }

def roll (stages : Stages α) : Stages α :=
  { stages with closed := stages.closed ++ stages.opened.toList, opened := some [] }

variable {stages : Stages α}

@[simp] theorem all_push (stages : Stages α) (item : α) :
    (stages.push item).all = stages.all ++ [item] := by
  simp [all, stored, push]

@[simp] theorem all_rotate (stages : Stages α) : stages.rotate.all = stages.all := by
  simp [all, stored, rotate]

/-- Nothing is lost when the last batch is stored. -/
theorem all_collect (done : stages.batch = []) : stages.collect.all = stages.all := by
  simp [all, stored, collect, done]

theorem all_start (unstarted : stages.opened = none) : stages.start.all = stages.all := by
  simp [all, stored, start, unstarted]

theorem all_store (started : stages.opened.isSome) : stages.store.all = stages.all := by
  obtain ⟨chunk, held⟩ := Option.isSome_iff_exists.mp started
  cases batch : stages.batch with
  | nil => simp [all, stored, store, held, batch]
  | cons first rest => simp [all, stored, store, held, batch]

@[simp] theorem all_roll (stages : Stages α) : stages.roll.all = stages.all := by
  simp [all, stored, roll]

end Stages
