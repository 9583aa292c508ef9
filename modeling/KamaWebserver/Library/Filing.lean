import Mathlib.Data.Set.Insert
import Mathlib.Logic.Function.Basic
import Mathlib.Tactic.Common

set_option autoImplicit false

/- Members filed in lists by an index, each list in the order of arrival. -/
namespace Filing

variable {α ι : Type*}

/-- The list of each index holds exactly the members with that index, and its order is
that of their arrival stamps. -/
structure Filed (members : Set α) (index : α → ι) (stamp : α → Nat) (lists : ι → List α) :
    Prop where
  mem : ∀ i item, item ∈ lists i ↔ item ∈ members ∧ index item = i
  sorted : ∀ i, (lists i).Pairwise fun first second => stamp first < stamp second

variable {members : Set α} {index : α → ι} {stamp : α → Nat} {lists : ι → List α}

theorem Filed.nodup (filed : Filed members index stamp lists) (i : ι) : (lists i).Nodup := by
  refine (filed.sorted i).imp ?_
  rintro first second earlier rfl
  exact Nat.lt_irrefl _ earlier

/-- Only what the filing says of the members matters. -/
theorem Filed.congr (filed : Filed members index stamp lists) {index' : α → ι} {stamp' : α → Nat}
    (same : ∀ item ∈ members, index' item = index item ∧ stamp' item = stamp item) :
    Filed members index' stamp' lists := by
  refine ⟨fun i item => ?_, fun i => ?_⟩
  · rw [filed.mem]
    constructor
    · rintro ⟨inside, placed⟩
      exact ⟨inside, (same item inside).1.trans placed⟩
    · rintro ⟨inside, placed⟩
      exact ⟨inside, (same item inside).1.symm.trans placed⟩
  · refine (filed.sorted i).imp_of_mem ?_
    intro first second firstIn secondIn earlier
    have one := (same first ((filed.mem i first).mp firstIn).1).2
    have two := (same second ((filed.mem i second).mp secondIn).1).2
    omega

/-- Taking an item out of its list takes it out of the filing. -/
theorem Filed.remove [DecidableEq α] [DecidableEq ι]
    (filed : Filed members index stamp lists) (item : α) :
    Filed (members \ {item}) index stamp
      (Function.update lists (index item) ((lists (index item)).erase item)) := by
  have nodup := filed.nodup
  refine ⟨fun i other => ?_, fun i => ?_⟩
  · by_cases here : i = index item
    · subst here
      rw [Function.update_self, (nodup _).mem_erase_iff, filed.mem]
      simp only [Set.mem_sdiff, Set.mem_singleton_iff]
      tauto
    · rw [Function.update_of_ne here, filed.mem]
      simp only [Set.mem_sdiff, Set.mem_singleton_iff]
      constructor
      · rintro ⟨inside, rfl⟩
        exact ⟨⟨inside, fun same => here (by rw [same])⟩, rfl⟩
      · exact fun ⟨⟨inside, _⟩, placed⟩ => ⟨inside, placed⟩
  · by_cases here : i = index item
    · subst here
      rw [Function.update_self]
      exact (filed.sorted _).sublist List.erase_sublist
    · rw [Function.update_of_ne here]
      exact filed.sorted i

/-- A new item that arrives after all members goes to the end of its list. -/
theorem Filed.add [DecidableEq ι] (filed : Filed members index stamp lists) {item : α}
    (outside : item ∉ members) (latest : ∀ other ∈ members, stamp other < stamp item) :
    Filed (insert item members) index stamp
      (Function.update lists (index item) (lists (index item) ++ [item])) := by
  refine ⟨fun i other => ?_, fun i => ?_⟩
  · by_cases here : i = index item
    · subst here
      rw [Function.update_self, List.mem_append, filed.mem, List.mem_singleton,
        Set.mem_insert_iff]
      constructor
      · rintro (⟨inside, placed⟩ | rfl)
        · exact ⟨Or.inr inside, placed⟩
        · exact ⟨Or.inl rfl, rfl⟩
      · rintro ⟨rfl | inside, placed⟩
        · exact Or.inr rfl
        · exact Or.inl ⟨inside, placed⟩
    · rw [Function.update_of_ne here, filed.mem, Set.mem_insert_iff]
      constructor
      · exact fun ⟨inside, placed⟩ => ⟨Or.inr inside, placed⟩
      · rintro ⟨rfl | inside, placed⟩
        · exact absurd placed.symm here
        · exact ⟨inside, placed⟩
  · by_cases here : i = index item
    · subst here
      rw [Function.update_self, List.pairwise_append]
      refine ⟨filed.sorted _, List.pairwise_singleton _ _, ?_⟩
      intro other inside last final
      rw [List.mem_singleton] at final
      rw [final]
      exact latest other ((filed.mem _ other).mp inside).1
    · rw [Function.update_of_ne here]
      exact filed.sorted i

/-- The first of a list arrived before every other member with its index. -/
theorem Filed.head_earliest (filed : Filed members index stamp lists) {i : ι} {first : α}
    {rest : List α} (list : lists i = first :: rest) :
    first ∈ members ∧ index first = i ∧
      ∀ other ∈ members, index other = i → other ≠ first → stamp first < stamp other := by
  have here : first ∈ lists i := by simp [list]
  obtain ⟨inside, placed⟩ := (filed.mem i first).mp here
  refine ⟨inside, placed, fun other member same different => ?_⟩
  have listed : other ∈ lists i := (filed.mem i other).mpr ⟨member, same⟩
  have sorted := filed.sorted i
  rw [list] at listed sorted
  rcases List.mem_cons.mp listed with equal | later
  · exact absurd equal different
  · exact List.rel_of_pairwise_cons sorted later

end Filing
