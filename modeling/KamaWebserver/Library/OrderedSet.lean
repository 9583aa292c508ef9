import Mathlib.Data.List.Basic
import Mathlib.Data.List.TakeWhile
import Mathlib.Order.Defs.Unbundled

set_option autoImplicit false

/- An ordered set as the list of its elements in order. Two elements neither of which
comes before the other count as one. -/
namespace OrderedSet

variable {α : Type*} {before : α → α → Prop} {items : List α}

/-- The first of the elements comes before every other. -/
theorem head_least {first other : α} (sorted : items.Pairwise before)
    (head : items.head? = some first) (inside : other ∈ items) :
    other = first ∨ before first other := by
  obtain ⟨rest, rfl⟩ := List.head?_eq_some_iff.mp head
  rcases List.mem_cons.mp inside with same | later
  · exact .inl same
  · exact .inr ((List.pairwise_cons.mp sorted).1 other later)

/-- When some element is below a bound, the first one is. -/
theorem below_of_mem [IsTrans α before] {first other bound : α} (sorted : items.Pairwise before)
    (head : items.head? = some first) (inside : other ∈ items) (below : before other bound) :
    before first bound := by
  rcases head_least sorted head inside with rfl | follows
  · exact below
  · exact trans_of before follows below

/-- The elements below a bound are those in front of the first one that is not. -/
theorem mem_takeWhile_iff [IsTrans α before] [DecidableRel before] {other bound : α}
    (sorted : items.Pairwise before) :
    other ∈ items.takeWhile (fun item => before item bound) ↔
      other ∈ items ∧ before other bound := by
  constructor
  · intro front
    have below := List.mem_takeWhile_imp front
    exact ⟨(List.takeWhile_sublist _).mem front, by simpa using below⟩
  · rintro ⟨inside, below⟩
    induction items with
    | nil => exact absurd inside List.not_mem_nil
    | cons first rest ih =>
        have starts : before first bound := below_of_mem sorted rfl inside below
        simp only [List.takeWhile_cons, starts, decide_true, ↓reduceIte]
        rcases List.mem_cons.mp inside with rfl | later
        · exact List.mem_cons_self
        · exact List.mem_cons_of_mem first (ih (List.pairwise_cons.mp sorted).2 later)

variable (before) [DecidableRel before]

/-- An equivalent element that is there already is kept. -/
def insert (item : α) : List α → List α
  | [] => [item]
  | first :: rest =>
      if before item first then item :: first :: rest
      else if before first item then first :: insert item rest
      else first :: rest

variable {before} {item : α}

theorem mem_of_mem_insert {other : α} (inside : other ∈ insert before item items) :
    other = item ∨ other ∈ items := by
  induction items with
  | nil => exact .inl (List.mem_singleton.mp inside)
  | cons first rest ih =>
      simp only [insert] at inside
      split at inside
      · exact List.mem_cons.mp inside
      · split at inside
        · rcases List.mem_cons.mp inside with rfl | later
          · exact .inr List.mem_cons_self
          · exact (ih later).imp_right (List.mem_cons_of_mem first)
        · exact .inr inside

theorem insert_sorted [IsTrans α before] (sorted : items.Pairwise before) :
    (insert before item items).Pairwise before := by
  induction items with
  | nil => exact List.pairwise_singleton before item
  | cons first rest ih =>
      obtain ⟨least, ordered⟩ := List.pairwise_cons.mp sorted
      simp only [insert]
      split
      case isTrue earlier =>
        refine List.pairwise_cons.mpr ⟨fun other inside => ?_, sorted⟩
        rcases List.mem_cons.mp inside with rfl | later
        · exact earlier
        · exact trans_of before earlier (least other later)
      case isFalse _ =>
        split
        case isTrue follows =>
          refine List.pairwise_cons.mpr ⟨fun other inside => ?_, ih ordered⟩
          rcases mem_of_mem_insert inside with rfl | later
          · exact follows
          · exact least other later
        case isFalse _ => exact sorted

/-- An element equivalent to none is added. -/
theorem insert_perm (apart : ∀ other ∈ items, before item other ∨ before other item) :
    (insert before item items).Perm (item :: items) := by
  induction items with
  | nil => exact .refl _
  | cons first rest ih =>
      simp only [insert]
      split
      case isTrue _ => exact .refl _
      case isFalse later =>
        have follows : before first item :=
          (apart first List.mem_cons_self).resolve_left later
        rw [if_pos follows]
        have added := ih (fun other inside => apart other (List.mem_cons_of_mem first inside))
        exact (added.cons first).trans (.swap item first rest)

end OrderedSet
