import Mathlib.Logic.Function.Basic
import Mathlib.Tactic.Common

set_option autoImplicit false

/- Singly linked lists in a memory of words: each cell holds the address of the next one,
and zero ends the list. -/
namespace Linked

/-- From `head` on the links pass the cells given, in order, and end there. -/
def Chain (links : Nat → Nat) : Nat → List Nat → Prop
  | head, [] => head = 0
  | head, cell :: cells => head = cell ∧ cell ≠ 0 ∧ Chain links (links cell) cells

/-- The cells visited from `head` on, with a bound on their number. -/
def walk (links : Nat → Nat) : Nat → Nat → List Nat
  | 0, _ => []
  | bound + 1, head => if head = 0 then [] else head :: walk links bound (links head)

variable {links : Nat → Nat} {head : Nat} {cells : List Nat}

/-- A walk that may go far enough visits exactly the cells of the chain. -/
theorem Chain.walk_eq (chain : Chain links head cells) {bound : Nat}
    (enough : cells.length ≤ bound) : walk links bound head = cells := by
  induction cells generalizing head bound with
  | nil =>
      have null : head = 0 := chain
      cases bound with
      | zero => rfl
      | succ bound => simp only [walk, null, ↓reduceIte]
  | cons cell cells ih =>
      obtain ⟨rfl, nonnull, rest⟩ := chain
      cases bound with
      | zero => simp at enough
      | succ bound =>
          simp only [walk, nonnull, ↓reduceIte]
          rw [ih rest (by simpa using enough)]

/-- A link outside the chain can be written. -/
theorem Chain.update (chain : Chain links head cells) {address : Nat} (outside : address ∉ cells)
    (value : Nat) : Chain (Function.update links address value) head cells := by
  induction cells generalizing head with
  | nil => exact chain
  | cons cell cells ih =>
      obtain ⟨first, nonnull, rest⟩ := chain
      rw [List.mem_cons, not_or] at outside
      refine ⟨first, nonnull, ?_⟩
      rw [Function.update_of_ne (Ne.symm outside.1)]
      exact ih rest outside.2

/-- A new cell is put in front. -/
theorem Chain.cons (chain : Chain links head cells) {cell : Nat} (nonnull : cell ≠ 0)
    (outside : cell ∉ cells) : Chain (Function.update links cell head) cell (cell :: cells) := by
  refine ⟨rfl, nonnull, ?_⟩
  rw [Function.update_self]
  exact chain.update outside head

/-- A chain that does not start at null has a first cell. -/
theorem Chain.exists_cons (chain : Chain links head cells) (some : head ≠ 0) :
    ∃ rest, cells = head :: rest ∧ Chain links (links head) rest := by
  cases cells with
  | nil => exact absurd chain some
  | cons cell rest =>
      obtain ⟨rfl, -, next⟩ := chain
      exact ⟨rest, rfl, next⟩

/-- A memory has at most one chain from a head. -/
theorem Chain.unique (chain : Chain links head cells) {other : List Nat}
    (also : Chain links head other) : cells = other := by
  induction cells generalizing head other with
  | nil =>
      cases other with
      | nil => rfl
      | cons cell rest => exact absurd (also.1.symm.trans chain) also.2.1
  | cons cell cells ih =>
      cases other with
      | nil => exact absurd (chain.1.symm.trans also) chain.2.1
      | cons first rest =>
          obtain ⟨rfl, -, next⟩ := chain
          obtain ⟨rfl, -, next'⟩ := also
          rw [ih next next']

theorem Chain.eq_nil (chain : Chain links 0 cells) : cells = [] := by
  cases cells with
  | nil => rfl
  | cons cell rest => exact absurd chain.1.symm chain.2.1

end Linked
