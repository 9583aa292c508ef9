import Mathlib.Data.List.AList
import Mathlib.Tactic.Common

set_option autoImplicit false

/- Tables that differ only in the names of what they hold. -/
namespace Renaming

universe u v w

variable {α : Type u} {β : Type v} {γ : Type w}

/-- An entry under another name. -/
def renamed (name : β → γ) : (_ : α) × β → (_ : α) × γ := Sigma.map id fun _ => name

/-- The second table has the entries of the first in their order, renamed. -/
def Renames (name : β → γ) (first : AList fun _ : α => β) (second : AList fun _ : α => γ) :
    Prop :=
  second.entries = first.entries.map (renamed name)

variable {name : β → γ} {first : AList fun _ : α => β} {second : AList fun _ : α => γ}

theorem renames_empty (name : β → γ) :
    Renames name (∅ : AList fun _ : α => β) (∅ : AList fun _ : α => γ) := rfl

theorem Renames.length (renames : Renames name first second) :
    second.entries.length = first.entries.length := by
  rw [renames, List.length_map]

theorem Renames.isEmpty (renames : Renames name first second) :
    second.entries.isEmpty = first.entries.isEmpty := by
  rw [renames, List.isEmpty_map]

variable [DecidableEq α]

theorem Renames.lookup (renames : Renames name first second) (key : α) :
    second.lookup key = (first.lookup key).map name := by
  unfold AList.lookup
  rw [renames]
  exact List.dlookup_map₂ (f := fun _ => name) key

/-- Erasing a key looks at keys only. -/
theorem kerase_renamed (name : β → γ) (key : α) (entries : List ((_ : α) × β)) :
    (entries.map (renamed name)).kerase key = (entries.kerase key).map (renamed name) := by
  induction entries with
  | nil => rfl
  | cons entry entries ih =>
      by_cases same : key = entry.1
      · rw [List.map_cons, List.kerase_cons_eq same, List.kerase_cons_eq]
        exact same
      · rw [List.map_cons, List.kerase_cons_ne same, List.kerase_cons_ne, List.map_cons, ih]
        exact same

theorem Renames.erase (renames : Renames name first second) (key : α) :
    Renames name (first.erase key) (second.erase key) := by
  change second.entries.kerase key = (first.entries.kerase key).map (renamed name)
  rw [renames, kerase_renamed]

theorem Renames.insert (renames : Renames name first second) (key : α) (value : β) :
    Renames name (first.insert key value) (second.insert key (name value)) := by
  unfold Renames
  rw [AList.entries_insert, AList.entries_insert, renames, kerase_renamed]
  rfl

end Renaming
