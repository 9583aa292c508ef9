import KamaWebserver.PoolAlignment

set_option autoImplicit false

namespace KamaWebserver

open Linked Outcome Storage Transition

/-- `MAX_SLOT_SIZE`. -/
def maxSlotSize : Nat := 512

/-- The pools share one memory: the `memory` of a pool counts only while one of its functions
runs. -/
structure HashBucket where
  memory : Nat → Nat
  memoryPool : Fin memoryPoolNum → MemoryPool

/-- The pool for objects of `size` bytes, which the callers have checked. -/
def poolIndex (size : Nat) (pooled : 0 < size ∧ size ≤ maxSlotSize) : Fin memoryPoolNum :=
  ⟨(size + 7) / slotBaseSize - 1, by
    unfold slotBaseSize memoryPoolNum
    unfold maxSlotSize at pooled
    omega⟩

namespace HashBucket

def getMemoryPool (h : HashBucket) (index : Fin memoryPoolNum) : MemoryPool :=
  { h.memoryPool index with memory := h.memory }

/-- What a function of the pool leaves. -/
def setMemoryPool (h : HashBucket) (index : Fin memoryPoolNum) (p : MemoryPool) : HashBucket where
  memory := p.memory
  memoryPool := Function.update h.memoryPool index p

def initMemoryPool (memory : Nat → Nat) : HashBucket where
  memory := memory
  memoryPool i := .init ((i + 1) * slotBaseSize) memory

/-- `newBlock` is what `operator new` returns if it is called. -/
def useMemory (h : HashBucket) (size newBlock : Nat) : Nat × HashBucket :=
  if pooled : 0 < size ∧ size ≤ maxSlotSize then
    let index := poolIndex size pooled
    let (ptr, p) := (h.getMemoryPool index).allocate newBlock
    (ptr, h.setMemoryPool index p)
  else if size = 0 then (0, h)
  else (newBlock, h)

/-- For a size of zero the index of the pool wraps to -1. -/
def freeMemory (h : HashBucket) (ptr size : Nat) : Except Fault HashBucket :=
  if ptr = 0 then .ok h
  else if pooled : 0 < size ∧ size ≤ maxSlotSize then
    let index := poolIndex size pooled
    .ok (h.setMemoryPool index ((h.getMemoryPool index).deallocate ptr))
  else if size = 0 then .error .outOfBounds
  else .ok h

end HashBucket

/-- The pools with the slots clients hold and the blocks each has been given. An object of
more than `maxSlotSize` bytes comes from `operator new` and is in no pool. -/
structure BucketRun where
  bucket : HashBucket
  live : Fin memoryPoolNum → List Nat
  blocks : Fin memoryPoolNum → List Nat

/-- The calls, and a client's write to a word of memory. -/
inductive BucketEvent
  | useMemory (size newBlock : Nat)
  | freeMemory (ptr size : Nat)
  | store (address value : Nat)

namespace BucketRun

/-- One of the pools, as a pool of its own. -/
def view (r : BucketRun) (i : Fin memoryPoolNum) : PoolRun :=
  ⟨r.bucket.getMemoryPool i, r.live i, r.blocks i⟩

/-- The pool's functions have made of it what is given. -/
def place (r : BucketRun) (i : Fin memoryPoolNum) (p : PoolRun) : BucketRun where
  bucket := r.bucket.setMemoryPool i p.pool
  live := Function.update r.live i p.live
  blocks := Function.update r.blocks i p.blocks

/-- Clients may write to the slots they hold, and to memory that is in no pool. -/
def Writable (r : BucketRun) (address : Nat) : Prop :=
  8 ∣ address ∧
    ((∃ i, ∃ slot ∈ r.live i,
        slot ≤ address ∧ address + 8 ≤ slot + (r.bucket.getMemoryPool i).SlotSize) ∨
      ∀ i, ∀ block ∈ r.blocks i, address + 8 ≤ block ∨ block + 4096 ≤ address)

instance (r : BucketRun) (address : Nat) : Decidable (r.Writable address) :=
  inferInstanceAs (Decidable (8 ∣ address ∧
    ((∃ i, ∃ slot ∈ r.live i,
        slot ≤ address ∧ address + 8 ≤ slot + (r.bucket.getMemoryPool i).SlotSize) ∨
      ∀ i, ∀ block ∈ r.blocks i, address + 8 ≤ block ∨ block + 4096 ≤ address)))

/-- An object is given back under the size it was taken with. -/
def step (r : BucketRun) : BucketEvent → Except Fault BucketRun
  | .useMemory size newBlock =>
      let (ptr, bucket) := r.bucket.useMemory size newBlock
      if pooled : 0 < size ∧ size ≤ maxSlotSize then
        let i := poolIndex size pooled
        let needs := PoolRun.NeedsBlock (r.bucket.getMemoryPool i)
        if needs → ∀ j, PoolRun.Placed (r.blocks j) newBlock then
          .ok {
            bucket
            live := Function.update r.live i (ptr :: r.live i)
            blocks := Function.update r.blocks i
              (if needs then newBlock :: r.blocks i else r.blocks i) }
        else .error .notEnabled
      else .ok { r with bucket }
  | .freeMemory ptr size =>
      if pooled : 0 < size ∧ size ≤ maxSlotSize then
        let i := poolIndex size pooled
        if ptr = 0 ∨ ptr ∈ r.live i then do
          let bucket ← r.bucket.freeMemory ptr size
          return { r with bucket, live := Function.update r.live i ((r.live i).erase ptr) }
        else .error .notEnabled
      else do
        let bucket ← r.bucket.freeMemory ptr size
        return { r with bucket }
  | .store address value =>
      if r.Writable address then
        .ok { r with bucket := { r.bucket with
          memory := Function.update r.bucket.memory address value } }
      else .error .notEnabled

/-- All pools after `initMemoryPool`. -/
def start (memory : Nat → Nat) : BucketRun := ⟨.initMemoryPool memory, fun _ => [], fun _ => []⟩

variable {r : BucketRun} {i j : Fin memoryPoolNum} {p : PoolRun}

@[simp] theorem view_place (r : BucketRun) (i : Fin memoryPoolNum) (p : PoolRun) :
    (r.place i p).view i = p := by
  simp [view, place, HashBucket.getMemoryPool, HashBucket.setMemoryPool]

/-- Another pool sees only what has become of the memory. -/
theorem view_place_of_ne (other : j ≠ i) :
    (r.place i p).view j =
      { r.view j with pool := { (r.view j).pool with memory := p.pool.memory } } := by
  simp [view, place, HashBucket.getMemoryPool, HashBucket.setMemoryPool,
    Function.update_of_ne other]

/-- What a function of a pool does to the memory that the others see: at most one write, to a
word of one of its blocks. -/
def Confined (blocks : List Nat) (before after : Nat → Nat) : Prop :=
  after = before ∨ ∃ address value, after = Function.update before address value ∧
    8 ∣ address ∧ ∃ block ∈ blocks, block ≤ address ∧ address + 8 ≤ block + 4096

/-- Each pool is as if it were alone, and their blocks lie apart. -/
structure Projects (memory : Nat → Nat) (r : BucketRun) : Prop where
  alone : ∀ i : Fin memoryPoolNum,
    Reachable PoolRun.step (PoolRun.start ((i + 1) * slotBaseSize) memory) (r.view i)
  apart : ∀ i j, i ≠ j → ∀ block ∈ r.blocks i, ∀ other ∈ r.blocks j, Apart 4096 block other

variable {memory : Nat → Nat}

/-- The slot sizes of the pools. -/
theorem slotSize_of_pool (i : Fin memoryPoolNum) :
    PoolRun.SlotSize ((i + 1) * slotBaseSize) := by
  rw [Nat.mul_comm]
  exact .of_index (Nat.le_add_left 1 i) i.isLt

theorem Projects.layout (projects : Projects memory r) (i : Fin memoryPoolNum) :
    ∃ free, PoolRun.Layout ((i + 1) * slotBaseSize) (r.view i) free :=
  PoolRun.reachable_layout (slotSize_of_pool i) (projects.alone i)

theorem start_projects (memory : Nat → Nat) : Projects memory (start memory) where
  alone _ := ⟨[], rfl⟩
  apart _ _ _ _ inside := absurd inside List.not_mem_nil

/-- One pool takes a step of its own. To the others it is a client's write to memory that is
not theirs. -/
theorem Projects.own (projects : Projects memory r) {event : PoolEvent}
    (taken : (r.view i).step event = .ok p)
    (confined : Confined p.blocks r.bucket.memory p.pool.memory)
    (apart : ∀ j, j ≠ i → ∀ block ∈ p.blocks, ∀ other ∈ r.blocks j, Apart 4096 block other) :
    Projects memory (r.place i p) where
  alone := by
    intro j
    by_cases same : j = i
    · subst same
      rw [view_place]
      exact (projects.alone j).snoc taken
    · rw [view_place_of_ne same]
      rcases confined with kept | ⟨address, value, written, word, block, inside, lower, upper⟩
      · rw [kept]
        exact projects.alone j
      · have outside : ∀ own ∈ r.blocks j, address + 8 ≤ own ∨ own + 4096 ≤ address := by
          intro own member
          have separate := apart j same block inside own member
          unfold Apart at separate
          omega
        have writable : (r.view j).Writable address := ⟨word, Or.inr outside⟩
        rw [written]
        have stored : (r.view j).step (.store address value) =
            .ok { r.view j with pool := (r.view j).pool.setNext address value } := if_pos writable
        exact (projects.alone j).snoc stored
  apart := by
    intro first second different block inside other member
    simp only [place] at inside member
    by_cases one : first = i
    · subst one
      rw [Function.update_self] at inside
      rw [Function.update_of_ne different.symm] at member
      exact apart second different.symm block inside other member
    · rw [Function.update_of_ne one] at inside
      by_cases two : second = i
      · subst two
        rw [Function.update_self] at member
        exact (apart first one other member block inside).symm
      · rw [Function.update_of_ne two] at member
        exact projects.apart first second different block inside other member

/-- A client's write is one to every pool. -/
theorem Projects.store (projects : Projects memory r) {address : Nat}
    (writable : r.Writable address) (value : Nat) :
    Projects memory { r with bucket := { r.bucket with
      memory := Function.update r.bucket.memory address value } } where
  alone := by
    intro j
    have own : (r.view j).Writable address := by
      refine ⟨writable.1, ?_⟩
      rcases writable.2 with ⟨i, slot, alive, lower, upper⟩ | outside
      · by_cases same : j = i
        · subst same
          exact Or.inl ⟨slot, alive, lower, upper⟩
        · obtain ⟨free, layout⟩ := projects.layout i
          have size : (r.bucket.getMemoryPool i).SlotSize = (i + 1) * slotBaseSize :=
            layout.slotSize
          obtain ⟨-, block, inside, behind, before⟩ :=
            layout.within slot (List.mem_append_left free alive)
          refine Or.inr fun other member => ?_
          have separate := projects.apart j i same other member block inside
          unfold Apart at separate
          omega
      · exact Or.inr (outside j)
    have stored : (r.view j).step (.store address value) =
        .ok { r.view j with pool := (r.view j).pool.setNext address value } := if_pos own
    exact (projects.alone j).snoc stored
  apart := projects.apart

/-- `allocate` writes at most the header of its new block. -/
theorem allocate_confined (v : PoolRun) {newBlock : Nat}
    (placed : PoolRun.NeedsBlock v.pool → PoolRun.Placed v.blocks newBlock) :
    Confined (v.allocate newBlock).blocks v.pool.memory (v.allocate newBlock).pool.memory := by
  rcases v.allocate_cases newBlock with ⟨-, popped⟩ | ⟨-, -, carved⟩ | ⟨-, needs, grown⟩
  · rw [popped]
    exact Or.inl rfl
  · rw [carved]
    exact Or.inl rfl
  · rw [grown]
    exact Or.inr ⟨newBlock, v.pool.firstBlock, rfl, (placed needs).1, newBlock,
      List.mem_cons_self, Nat.le_refl newBlock, by omega⟩

/-- `deallocate` writes the link of the slot it is given. -/
theorem deallocate_confined {size : Nat} {v : PoolRun} {free : List Nat}
    (layout : PoolRun.Layout size v free) (sized : PoolRun.SlotSize size) {ptr : Nat}
    (alive : ptr ∈ v.live) :
    Confined v.blocks v.pool.memory (v.pool.deallocate ptr).memory := by
  obtain ⟨word, block, inside, behind, before⟩ :=
    layout.within ptr (List.mem_append_left free alive)
  have nonnull : ptr ≠ 0 := by omega
  have aligned := sized.aligned
  have positive := sized.positive
  refine Or.inr ⟨ptr, v.pool.freeList, ?_, word, block, inside, by omega, by omega⟩
  simp only [MemoryPool.deallocate, nonnull, MemoryPool.setNext, ↓reduceIte]

/-- `useMemory` is `allocate` of one of the pools. -/
theorem useMemory_eq (r : BucketRun) {size newBlock : Nat}
    (pooled : 0 < size ∧ size ≤ maxSlotSize) :
    r.bucket.useMemory size newBlock =
      (((r.view (poolIndex size pooled)).pool.allocate newBlock).1,
        r.bucket.setMemoryPool (poolIndex size pooled)
          ((r.view (poolIndex size pooled)).pool.allocate newBlock).2) := by
  simp only [HashBucket.useMemory, pooled, view, and_self, ↓reduceDIte]

theorem useMemory_ok {after : BucketRun} {size newBlock : Nat}
    (pooled : 0 < size ∧ size ≤ maxSlotSize)
    (taken : r.step (.useMemory size newBlock) = .ok after) :
    (PoolRun.NeedsBlock (r.view (poolIndex size pooled)).pool →
      ∀ j, PoolRun.Placed (r.blocks j) newBlock) ∧
      after = r.place (poolIndex size pooled)
        ((r.view (poolIndex size pooled)).allocate newBlock) := by
  simp only [step, pooled, and_self, ↓reduceDIte, useMemory_eq r pooled] at taken
  obtain ⟨placed, returned⟩ := guard_ok taken
  cases returned
  exact ⟨placed, rfl⟩

/-- A slot that is given back goes to its pool. -/
theorem freeMemory_ok {after : BucketRun} {ptr size : Nat}
    (pooled : 0 < size ∧ size ≤ maxSlotSize) (nonnull : ptr ≠ 0)
    (taken : r.step (.freeMemory ptr size) = .ok after) :
    ptr ∈ r.live (poolIndex size pooled) ∧
      after = r.place (poolIndex size pooled) { r.view (poolIndex size pooled) with
        pool := (r.view (poolIndex size pooled)).pool.deallocate ptr
        live := (r.live (poolIndex size pooled)).erase ptr } := by
  simp only [step, pooled, and_self, ↓reduceDIte, nonnull, false_or] at taken
  obtain ⟨alive, returned⟩ := guard_ok taken
  simp only [HashBucket.freeMemory, pooled, nonnull, ↓reduceIte] at returned
  cases returned
  refine ⟨alive, ?_⟩
  simp [place, view]

theorem Projects.useMemory (projects : Projects memory r) {after : BucketRun}
    {size newBlock : Nat} (taken : r.step (.useMemory size newBlock) = .ok after) :
    Projects memory after := by
  by_cases pooled : 0 < size ∧ size ≤ maxSlotSize
  · obtain ⟨placed, rfl⟩ := useMemory_ok pooled taken
    have own : PoolRun.NeedsBlock (r.view (poolIndex size pooled)).pool →
        PoolRun.Placed (r.blocks (poolIndex size pooled)) newBlock :=
      fun needs => placed needs _
    have allocated : (r.view (poolIndex size pooled)).step (.allocate newBlock) =
        .ok ((r.view (poolIndex size pooled)).allocate newBlock) := if_pos own
    refine projects.own allocated (allocate_confined _ own) ?_
    intro j other block inside old member
    simp only [PoolRun.allocate] at inside
    split at inside
    · rename_i needs
      rcases List.mem_cons.mp inside with rfl | known
      · exact (placed needs j).2.2.2 old member
      · exact projects.apart _ j other.symm block known old member
    · exact projects.apart _ j other.symm block inside old member
  · simp only [step, HashBucket.useMemory, pooled, ↓reduceDIte] at taken
    split at taken
    all_goals
      cases taken
      exact projects

theorem Projects.freeMemory (projects : Projects memory r) {after : BucketRun} {ptr size : Nat}
    (taken : r.step (.freeMemory ptr size) = .ok after) : Projects memory after := by
  by_cases pooled : 0 < size ∧ size ≤ maxSlotSize
  · obtain ⟨free, layout⟩ := projects.layout (poolIndex size pooled)
    by_cases null : ptr = 0
    · subst null
      have absent : 0 ∉ r.live (poolIndex size pooled) := by
        intro inside
        obtain ⟨-, block, -, behind, -⟩ :=
          layout.within 0 (List.mem_append_left free inside)
        omega
      simp only [step, pooled, and_self, ↓reduceDIte, true_or, ↓reduceIte,
        HashBucket.freeMemory] at taken
      cases taken
      rw [List.erase_of_not_mem absent, Function.update_eq_self]
      exact projects
    · obtain ⟨alive, rfl⟩ := freeMemory_ok pooled null taken
      have sized := slotSize_of_pool (poolIndex size pooled)
      have freed : (r.view (poolIndex size pooled)).step (.deallocate ptr) = .ok _ := if_pos alive
      refine projects.own freed (deallocate_confined layout sized alive) ?_
      intro j other block inside old member
      exact projects.apart _ j other.symm block inside old member
  · simp only [step, pooled, ↓reduceDIte, HashBucket.freeMemory] at taken
    by_cases null : ptr = 0
    · simp only [null, ↓reduceIte] at taken
      cases taken
      exact projects
    · by_cases empty : size = 0
      · simp only [null, empty, ↓reduceIte] at taken
        cases taken
      · simp only [null, empty, ↓reduceIte] at taken
        cases taken
        exact projects

theorem step_projects {event : BucketEvent} {after : BucketRun} (projects : Projects memory r)
    (taken : r.step event = .ok after) : Projects memory after := by
  cases event with
  | useMemory size newBlock => exact projects.useMemory taken
  | freeMemory ptr size => exact projects.freeMemory taken
  | store address value =>
      obtain ⟨writable, returned⟩ := guard_ok taken
      cases returned
      exact projects.store writable value

theorem reachable_projects (reached : Reachable step (start memory) r) : Projects memory r :=
  reached.preserves (Projects memory) (fun _ _ _ kept taken => step_projects kept taken)
    (start_projects memory)

/-- A power of two that divides the size of an object divides the slot size of its pool: up to
eight it divides all slot sizes, and from eight on the size needs no rounding. -/
theorem dvd_slotSize {size k : Nat} (pooled : 0 < size ∧ size ≤ maxSlotSize)
    (divides : 2 ^ k ∣ size) : 2 ^ k ∣ (poolIndex size pooled + 1 : Nat) * slotBaseSize := by
  have word : slotBaseSize = 2 ^ 3 := rfl
  rcases Nat.le_total k 3 with small | large
  · rw [word]
    exact Nat.dvd_mul_left_of_dvd (Nat.pow_dvd_pow 2 small) _
  · have whole : 8 ∣ size := Nat.dvd_trans (Nat.pow_dvd_pow 2 large) divides
    have exactly : (poolIndex size pooled + 1 : Nat) * slotBaseSize = size := by
      have positive := pooled.1
      simp only [poolIndex, slotBaseSize]
      omega
    rw [exactly]
    exact divides

/-- A power of two up to the slot sizes divides the number of addresses. -/
theorem dvd_sizeModulus {size k : Nat} (pooled : 0 < size ∧ size ≤ maxSlotSize)
    (divides : 2 ^ k ∣ size) : 2 ^ k ∣ sizeModulus := by
  have bound : 2 ^ k ≤ 2 ^ 9 := Nat.le_trans (Nat.le_of_dvd pooled.1 divides) pooled.2
  have exponent : k ≤ 9 := (Nat.pow_le_pow_iff_right (by decide)).mp bound
  exact Nat.pow_dvd_pow 2 (by omega)

/-- The slot is as large as the object. -/
theorem size_le_slotSize {size : Nat} (pooled : 0 < size ∧ size ≤ maxSlotSize) :
    size ≤ (poolIndex size pooled + 1 : Nat) * slotBaseSize := by
  simp only [poolIndex, slotBaseSize]
  omega

theorem Projects.slotSize (projects : Projects memory r) (i : Fin memoryPoolNum) :
    (r.bucket.getMemoryPool i).SlotSize = (i + 1) * slotBaseSize := by
  obtain ⟨free, layout⟩ := projects.layout i
  exact layout.slotSize

theorem Projects.within (projects : Projects memory r) {slot : Nat} (held : slot ∈ r.live i) :
    ∃ block ∈ r.blocks i, block + slotBaseSize ≤ slot ∧
      slot + (i + 1) * slotBaseSize ≤ block + 4096 := by
  obtain ⟨free, layout⟩ := projects.layout i
  exact (layout.within slot (List.mem_append_left free held)).2

/-- Held slots of two pools do not overlap. -/
theorem Projects.separate (projects : Projects memory r) (different : i ≠ j) {slot other : Nat}
    (one : slot ∈ r.live i) (two : other ∈ r.live j) :
    slot + (i + 1) * slotBaseSize ≤ other ∨ other + (j + 1) * slotBaseSize ≤ slot := by
  obtain ⟨block, inside, behind, before⟩ := projects.within one
  obtain ⟨block', inside', behind', before'⟩ := projects.within two
  have separate := projects.apart i j different block inside block' inside'
  unfold Apart at separate
  omega

/-- The slot handed out last overlaps no other slot of its pool. -/
theorem Projects.apart_front (projects : Projects memory r) {ptr : Nat} {held : List Nat}
    (front : r.live i = ptr :: held) {slot : Nat} (other : slot ∈ held) :
    ptr + (i + 1) * slotBaseSize ≤ slot ∨ slot + (i + 1) * slotBaseSize ≤ ptr := by
  obtain ⟨free, layout⟩ := projects.layout i
  have pairs : (r.live i).Pairwise (Apart ((i + 1) * slotBaseSize)) :=
    (List.pairwise_append.mp layout.slots).1
  rw [front] at pairs
  exact (List.pairwise_cons.mp pairs).1 slot other

theorem useMemory_live {after : BucketRun} {size newBlock : Nat}
    (pooled : 0 < size ∧ size ≤ maxSlotSize)
    (taken : r.step (.useMemory size newBlock) = .ok after) :
    after.live = Function.update r.live (poolIndex size pooled)
      ((r.bucket.useMemory size newBlock).1 :: r.live (poolIndex size pooled)) := by
  obtain ⟨-, rfl⟩ := useMemory_ok pooled taken
  rw [useMemory_eq r pooled]
  rfl

/-- After any calls of `useMemory` and `freeMemory`, for every placement of the blocks: what
`useMemory` returns is a multiple of each power of two that divides the size, and the object
fits between the header and the end of a block without touching a slot in use. -/
theorem useMemory_aligned (memory : Nat → Nat) (events : List BucketEvent) (r after : BucketRun)
    (reached : run step (start memory) events = .ok r) (size newBlock a k : Nat)
    (positive : 1 ≤ size) (small : size ≤ maxSlotSize) (power : a = 2 ^ k) (divides : a ∣ size)
    (taken : r.step (.useMemory size newBlock) = .ok after) :
    let ptr := (r.bucket.useMemory size newBlock).1
    a ∣ ptr ∧
      (∃ i, ∃ block ∈ after.blocks i, block + slotBaseSize ≤ ptr ∧ ptr + size ≤ block + 4096) ∧
      ∀ i, ∀ slot ∈ r.live i,
        ptr + size ≤ slot ∨ slot + (r.bucket.getMemoryPool i).SlotSize ≤ ptr := by
  subst power
  have pooled : 0 < size ∧ size ≤ maxSlotSize := ⟨positive, small⟩
  have before : Projects memory r := reachable_projects ⟨events, reached⟩
  have projects : Projects memory after := before.useMemory taken
  have room := size_le_slotSize pooled
  have graded := PoolRun.reachable_graded (slotSize_of_pool _) (dvd_slotSize pooled divides)
    (dvd_sizeModulus pooled divides) (projects.alone (poolIndex size pooled))
  have live := useMemory_live pooled taken
  intro ptr
  have mine : ptr ∈ after.live (poolIndex size pooled) := by simp [live, ptr]
  obtain ⟨block, inside, behind, ahead⟩ := projects.within mine
  refine ⟨graded.live ptr mine, ⟨_, block, inside, behind, by omega⟩, ?_⟩
  intro i slot alive
  rw [before.slotSize i]
  by_cases same : i = poolIndex size pooled
  · subst same
    have apart := projects.apart_front (by rw [live, Function.update_self]) alive
    omega
  · have still : slot ∈ after.live i := by
      rw [live, Function.update_of_ne same]
      exact alive
    have apart := projects.separate (Ne.symm same) mine still
    omega

/-- An object of 48 bytes takes the slot another one has left; it lies at a multiple of 16
that is no multiple of 48. -/
theorem useMemory_aligned_reuse :
    ∃ r after, run step (start fun _ => 0) [.useMemory 48 65536, .useMemory 20 131072,
        .store 65584 7, .freeMemory 65584 48] = .ok r ∧
      r.step (.useMemory 48 0) = .ok after ∧ (r.bucket.useMemory 48 0).1 = 65584 ∧
        16 ∣ (r.bucket.useMemory 48 0).1 := by
  obtain ⟨r, reached, rest⟩ := (bind_ok_iff _ _ _).mp
    (show (run step (start fun _ => 0) [.useMemory 48 65536, .useMemory 20 131072,
        .store 65584 7, .freeMemory 65584 48] >>= fun r =>
      (r.step (.useMemory 48 0)).map fun _ => (r.bucket.useMemory 48 0).1) = .ok 65584
      by decide +kernel)
  obtain ⟨after, taken, ptr⟩ := (map_ok_iff _ _ _).mp rest
  exact ⟨r, after, reached, taken, ptr, (useMemory_aligned _ _ r after reached 48 0 16 4
    (by decide) (by decide) (by decide) (by decide) taken).1⟩

end BucketRun

end KamaWebserver
