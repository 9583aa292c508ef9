import Mathlib.Data.List.Pairwise
import Mathlib.Logic.Function.Basic
import Mathlib.Tactic.Common

set_option autoImplicit false

/- Storage addressed cell by cell, of which only a part may be in use, loads of ranges of
cells, and ranges of one size that do not overlap. -/
namespace Storage

variable {α : Type*}

/-- The content of `count` cells from `address` on, if all of them are in use. -/
def load (cells : Nat → Option α) : Nat → Nat → Option (List α)
  | _, 0 => some []
  | address, count + 1 =>
      match cells address with
      | none => none
      | some value => (load cells (address + 1) count).map (value :: ·)

/-- A load depends on the cells it covers only. -/
theorem load_congr {cells other : Nat → Option α} {address count : Nat}
    (same : ∀ cell, address ≤ cell → cell < address + count → cells cell = other cell) :
    load cells address count = load other address count := by
  induction count generalizing address with
  | zero => rfl
  | succ count ih =>
      have first := same address (by omega) (by omega)
      have rest : load cells (address + 1) count = load other (address + 1) count :=
        ih fun cell lower upper => same cell (by omega) (by omega)
      simp only [load, first, rest]

/-- A store that changes no covered cell changes no load. -/
theorem load_update (cells : Nat → Option α) {address count target : Nat} {value : Option α}
    (kept : address ≤ target → target < address + count → cells target = value) :
    load (Function.update cells target value) address count = load cells address count := by
  apply load_congr
  intro cell lower upper
  by_cases same : cell = target
  · subst same
    rw [Function.update_self, kept lower upper]
  · exact Function.update_of_ne same _ _

/-- The ranges of `size` cells at the two addresses do not overlap. -/
def Apart (size first second : Nat) : Prop :=
  first + size ≤ second ∨ second + size ≤ first

instance (size first second : Nat) : Decidable (Apart size first second) :=
  inferInstanceAs (Decidable (first + size ≤ second ∨ second + size ≤ first))

theorem Apart.symm {size first second : Nat} (apart : Apart size first second) :
    Apart size second first := Or.symm apart

instance (size : Nat) : Std.Symm (Apart size) := ⟨fun _ _ apart => apart.symm⟩

/-- Ranges that do not overlap begin at different addresses. -/
theorem nodup_of_apart {size : Nat} {addresses : List Nat}
    (apart : addresses.Pairwise (Apart size)) (positive : 0 < size) : addresses.Nodup := by
  apply apart.imp
  intro first second separate same
  unfold Apart at separate
  omega

/-- Two ranges, each given by its address and its size, do not overlap. -/
def Clear (first second : Nat × Nat) : Prop :=
  first.1 + first.2 ≤ second.1 ∨ second.1 + second.2 ≤ first.1

instance (first second : Nat × Nat) : Decidable (Clear first second) :=
  inferInstanceAs (Decidable (first.1 + first.2 ≤ second.1 ∨ second.1 + second.2 ≤ first.1))

theorem Clear.symm {first second : Nat × Nat} (clear : Clear first second) :
    Clear second first := Or.symm clear

/-- A part of a range overlaps nothing that the range does not overlap. -/
theorem Clear.part {first whole part : Nat × Nat} (clear : Clear first whole)
    (lower : whole.1 ≤ part.1) (upper : part.1 + part.2 ≤ whole.1 + whole.2) :
    Clear first part := by
  unfold Clear at *
  omega

end Storage
