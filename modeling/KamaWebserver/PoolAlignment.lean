import KamaWebserver.MemoryPoolSeparation
import Mathlib.Data.Nat.ModEq

set_option autoImplicit false

namespace KamaWebserver

open Linked Outcome Transition

/-- `size_t` addition keeps multiples of what divides 2^64, also when it wraps. -/
theorem dvd_addSize {grain a b : Nat} (word : grain ∣ sizeModulus) (sum : grain ∣ a + b) :
    grain ∣ addSize a b := by
  rw [addSize, Nat.dvd_mod_iff word]
  exact sum

namespace MemoryPool

/-- The padding brings an address to a multiple of what divides both the slot size and 2^64:
reducing modulo either of them loses nothing modulo such a number. -/
theorem padPointer_dvd {grain p align : Nat} (slot : grain ∣ align)
    (word : grain ∣ sizeModulus) (address : p ≤ sizeModulus) :
    grain ∣ p + padPointer p align := by
  have padding : padPointer p align ≡ align + (sizeModulus - p) [MOD grain] :=
    ((Nat.mod_modEq _ _).of_dvd slot).trans ((Nat.mod_modEq _ _).of_dvd word)
  have total : p + (align + (sizeModulus - p)) = align + sizeModulus := by omega
  have padded : p + padPointer p align ≡ align + sizeModulus [MOD grain] := by
    rw [← total]
    exact padding.add_left p
  exact (padded.dvd_iff (Nat.dvd_refl grain)).mpr (Nat.dvd_add slot word)

/-- A new block puts the cursor at such a multiple. -/
theorem allocateNewBlock_dvd {grain : Nat} (p : MemoryPool) (newBlock : Nat)
    (slot : grain ∣ p.SlotSize) (word : grain ∣ sizeModulus) :
    grain ∣ (p.allocateNewBlock newBlock).curSlot := by
  have address : addSize newBlock slotBaseSize ≤ sizeModulus :=
    Nat.le_of_lt (Nat.mod_lt _ (by decide))
  exact dvd_addSize word (padPointer_dvd slot word address)

/-- Below zero the difference is taken from 2^64. -/
theorem subSize_gt {p align : Nat} (above : align < p) (word : p ≤ sizeModulus) :
    subSize align p = align + (sizeModulus - p) :=
  Nat.mod_eq_of_lt (by omega)

/-- The remainder is that of 2^64 once the subtraction wraps, so the padding only brings such an
address to a multiple when 2^64 is one itself. -/
theorem padPointer_multiple {p align : Nat} (room : p + align < sizeModulus) :
    align ∣ p + padPointer p align ↔ align ∣ sizeModulus ∨ p ≤ align := by
  have padding : p + padPointer p align ≡ p + subSize align p [MOD align] :=
    (Nat.mod_modEq _ _).add_left p
  rw [padding.dvd_iff (Nat.dvd_refl align)]
  by_cases below : p ≤ align
  · have total : p + subSize align p = align := by
      rw [subSize_eq align p below (by omega)]
      omega
    rw [total]
    exact iff_of_true (Nat.dvd_refl align) (.inr below)
  · have total : p + subSize align p = align + sizeModulus := by
      rw [subSize_gt (Nat.not_le.mp below) (by omega)]
      omega
    rw [total, Nat.dvd_add_right (Nat.dvd_refl align), or_iff_left below]

/-- The padding aligns to the slot size when the slot size is a power of two, and for the
addresses up to the slot size. -/
theorem padPointer_aligns_iff (p align : Nat) (positive : 0 < align)
    (room : p + align < sizeModulus) :
    (align ∣ addSize p (padPointer p align) ∧ padPointer p align < align) ↔
      (align ∣ sizeModulus ∨ p ≤ align) := by
  have short := padPointer_lt p align positive
  have sum : addSize p (padPointer p align) = p + padPointer p align :=
    addSize_eq _ _ (by omega)
  rw [sum, padPointer_multiple room, and_iff_left short]

theorem padPointer_aligns_iff_sixtyFour :
    (64 ∣ addSize 4104 (padPointer 4104 64) ∧ padPointer 4104 64 < 64) ↔
      (64 ∣ sizeModulus ∨ 4104 ≤ 64) :=
  padPointer_aligns_iff 4104 64 (by decide) (by decide)

/-- The body of a block at 4096 already lies at a multiple of 24, and is moved off it. -/
theorem padPointer_misaligns :
    PoolRun.SlotSize 24 ∧ 4104 + 24 < sizeModulus ∧ 24 ∣ 4104 ∧ padPointer 4104 24 = 16 ∧
      ¬ 24 ∣ addSize 4104 (padPointer 4104 24) :=
  ⟨⟨by decide, by decide, by decide⟩, by decide, by decide, by decide, by decide⟩

/-- The first slot of a block begins at a multiple of the slot size when that divides 2^64. -/
theorem allocateNewBlock_multiple (p : MemoryPool) (newBlock : Nat)
    (sized : PoolRun.SlotSize p.SlotSize) (block : 4096 ≤ newBlock)
    (room : newBlock + 4096 < sizeModulus) :
    p.SlotSize ∣ (p.allocateNewBlock newBlock).curSlot ↔ p.SlotSize ∣ sizeModulus := by
  have small := sized.small
  have body : addSize newBlock slotBaseSize = newBlock + 8 :=
    addSize_eq _ _ (by
      unfold slotBaseSize
      omega)
  have short := padPointer_lt (newBlock + 8) p.SlotSize sized.positive
  have cursor : (p.allocateNewBlock newBlock).curSlot =
      newBlock + 8 + padPointer (newBlock + 8) p.SlotSize := by
    simp only [allocateNewBlock, setNext, body]
    exact addSize_eq _ _ (by omega)
  rw [cursor, padPointer_multiple (by omega), or_iff_left (by omega)]

end MemoryPool

namespace PoolRun

/-- Every slot of the pool, held, free or still to come, begins at a multiple of `grain`. -/
structure Graded (grain : Nat) (r : PoolRun) : Prop where
  live : ∀ slot ∈ r.live, grain ∣ slot
  freed : ∀ free, Chain r.pool.memory r.pool.freeList free → ∀ slot ∈ free, grain ∣ slot
  cursor : grain ∣ r.pool.curSlot

variable {size grain : Nat} {r after : PoolRun} {free : List Nat}

theorem start_graded (memory : Nat → Nat) : Graded grain (start size memory) where
  live := nofun
  freed := by
    intro free chain slot inside
    rw [Chain.eq_nil chain] at inside
    exact absurd inside List.not_mem_nil
  cursor := Nat.dvd_zero grain

/-- The slot at the cursor is handed out, and the cursor goes on by a slot. -/
theorem Graded.carve (graded : Graded grain r) (aligned : 8 ∣ r.pool.SlotSize)
    (slot : grain ∣ r.pool.SlotSize) (word : grain ∣ sizeModulus) :
    Graded grain r.carve where
  live := List.forall_mem_cons.mpr ⟨graded.cursor, graded.live⟩
  freed := graded.freed
  cursor := by
    have step : r.pool.SlotSize / slotBaseSize * slotBaseSize = r.pool.SlotSize :=
      Nat.div_mul_cancel aligned
    unfold PoolRun.carve
    rw [step]
    exact dvd_addSize word (Nat.dvd_add graded.cursor slot)

theorem Graded.newBlock (graded : Graded grain r) (slot : grain ∣ r.pool.SlotSize)
    (word : grain ∣ sizeModulus) (newBlock : Nat) :
    Graded grain (r.grow newBlock) where
  live := graded.live
  freed := by
    intro free chain slot inside
    rw [Chain.eq_nil chain] at inside
    exact absurd inside List.not_mem_nil
  cursor := r.pool.allocateNewBlock_dvd newBlock slot word

/-- The first free slot is handed out. -/
theorem Graded.pop (graded : Graded grain r) (some : r.pool.freeList ≠ 0) (free : List Nat)
    (chain : Chain r.pool.memory r.pool.freeList free) :
    Graded grain r.pop := by
  obtain ⟨rest, rfl, next⟩ := chain.exists_cons some
  have all := List.forall_mem_cons.mp (graded.freed _ chain)
  refine ⟨List.forall_mem_cons.mpr ⟨all.1, graded.live⟩, ?_, graded.cursor⟩
  intro free other slot inside
  rw [other.unique next] at inside
  exact all.2 slot inside

theorem Graded.allocate (graded : Graded grain r) (layout : Layout size r free)
    (aligned : 8 ∣ size) (slot : grain ∣ size) (word : grain ∣ sizeModulus) (newBlock : Nat) :
    Graded grain (r.allocate newBlock) := by
  rw [← layout.slotSize] at aligned slot
  rcases r.allocate_cases newBlock with ⟨some, popped⟩ | ⟨-, -, carved⟩ | ⟨-, -, grown⟩
  · rw [popped]
    exact graded.pop some free layout.freed
  · rw [carved]
    exact graded.carve aligned slot word
  · rw [grown]
    exact (graded.newBlock slot word newBlock).carve aligned slot word

/-- Where the links a step leaves are known, so is the alignment of the free slots. -/
theorem Graded.of_chain (graded : Graded grain r) {memory : Nat → Nat} {freeList : Nat}
    {live : List Nat} (fewer : ∀ slot ∈ live, grain ∣ slot)
    (chain : Chain memory freeList free) (all : ∀ slot ∈ free, grain ∣ slot) :
    Graded grain { r with pool := { r.pool with memory, freeList }, live } where
  live := fewer
  freed := by
    intro other same slot inside
    rw [same.unique chain] at inside
    exact all slot inside
  cursor := graded.cursor

/-- A step keeps the alignment: free slots were held before, and slots are carved one slot
size apart. -/
theorem step_graded (sized : SlotSize size) (slot : grain ∣ size) (word : grain ∣ sizeModulus)
    {event : PoolEvent} (layout : ∃ free, Layout size r free) (graded : Graded grain r)
    (taken : r.step event = .ok after) : Graded grain after := by
  obtain ⟨free, layout⟩ := layout
  cases event with
  | allocate newBlock =>
      obtain ⟨-, returned⟩ := guard_ok taken
      cases returned
      exact graded.allocate layout sized.aligned slot word newBlock
  | deallocate ptr =>
      obtain ⟨alive, returned⟩ := guard_ok taken
      cases returned
      have chain := (layout.deallocate sized.positive alive).freed
      have all := List.forall_mem_cons.mpr ⟨graded.live ptr alive, graded.freed free layout.freed⟩
      have fewer : ∀ slot ∈ r.live.erase ptr, grain ∣ slot :=
        fun slot inside => graded.live slot (List.mem_of_mem_erase inside)
      by_cases null : ptr = 0
      · simp only [MemoryPool.deallocate, null, ↓reduceIte] at *
        exact ⟨fewer, graded.freed, graded.cursor⟩
      · simp only [MemoryPool.deallocate, null, ↓reduceIte] at chain ⊢
        exact graded.of_chain fewer chain all
  | store address value =>
      obtain ⟨writable, returned⟩ := guard_ok taken
      cases returned
      have chain := (layout.store sized.positive writable value).freed
      exact graded.of_chain graded.live chain (graded.freed free layout.freed)

theorem reachable_graded (sized : SlotSize size) (slot : grain ∣ size)
    (word : grain ∣ sizeModulus) {memory : Nat → Nat}
    (reached : Reachable step (start size memory) r) : Graded grain r := by
  have both := reached.preserves
    (fun r => (∃ free, Layout size r free) ∧ Graded grain r)
    (fun _ _ _ kept taken =>
      ⟨step_layout sized kept.1 taken, step_graded sized slot word kept.1 kept.2 taken⟩)
    ⟨⟨[], start_layout memory⟩, start_graded memory⟩
  exact both.2

end PoolRun

end KamaWebserver
