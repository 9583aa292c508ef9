import KamaWebserver.Library.Storage
import KamaWebserver.Library.Transition
import KamaWebserver.MemoryPool

set_option autoImplicit false

namespace KamaWebserver

open Linked Outcome Storage Transition

/-- A pool with the slots its clients hold and the blocks it has been given, newest first. -/
structure PoolRun where
  pool : MemoryPool
  live : List Nat
  blocks : List Nat

/-- The calls, and a client's write to a word of memory. -/
inductive PoolEvent
  | allocate (newBlock : Nat)
  | deallocate (ptr : Nat)
  | store (address value : Nat)

namespace PoolRun

/-- `allocate` will ask `operator new` for a block. -/
def NeedsBlock (p : MemoryPool) : Prop := p.freeList = 0 ∧ p.lastSlot ≤ p.curSlot

instance (p : MemoryPool) : Decidable (NeedsBlock p) :=
  inferInstanceAs (Decidable (p.freeList = 0 ∧ p.lastSlot ≤ p.curSlot))

/-- What `operator new` promises of a block: it is aligned, its end is an address, and it
overlaps no other block. -/
def Placed (blocks : List Nat) (newBlock : Nat) : Prop :=
  8 ∣ newBlock ∧ 0 < newBlock ∧ newBlock + 4096 < sizeModulus ∧
    ∀ block ∈ blocks, Apart 4096 newBlock block

instance (blocks : List Nat) (newBlock : Nat) : Decidable (Placed blocks newBlock) :=
  inferInstanceAs (Decidable (8 ∣ newBlock ∧ 0 < newBlock ∧ newBlock + 4096 < sizeModulus ∧
    ∀ block ∈ blocks, Apart 4096 newBlock block))

/-- A client may write to its live slots, and to memory that is not the pool's. -/
def Writable (r : PoolRun) (address : Nat) : Prop :=
  8 ∣ address ∧
    ((∃ slot ∈ r.live, slot ≤ address ∧ address + 8 ≤ slot + r.pool.SlotSize) ∨
      ∀ block ∈ r.blocks, address + 8 ≤ block ∨ block + 4096 ≤ address)

instance (r : PoolRun) (address : Nat) : Decidable (r.Writable address) :=
  inferInstanceAs (Decidable (8 ∣ address ∧
    ((∃ slot ∈ r.live, slot ≤ address ∧ address + 8 ≤ slot + r.pool.SlotSize) ∨
      ∀ block ∈ r.blocks, address + 8 ≤ block ∨ block + 4096 ≤ address)))

/-- `allocate` with the block `operator new` places. -/
def allocate (r : PoolRun) (newBlock : Nat) : PoolRun where
  pool := (r.pool.allocate newBlock).2
  live := (r.pool.allocate newBlock).1 :: r.live
  blocks := if NeedsBlock r.pool then newBlock :: r.blocks else r.blocks

/-- The first free slot is handed out. -/
def pop (r : PoolRun) : PoolRun :=
  { r with
    pool := { r.pool with freeList := r.pool.memory r.pool.freeList }
    live := r.pool.freeList :: r.live }

/-- The slot at the cursor is handed out. -/
def carve (r : PoolRun) : PoolRun :=
  { r with
    pool := { r.pool with
      curSlot := addSize r.pool.curSlot (r.pool.SlotSize / slotBaseSize * slotBaseSize) }
    live := r.pool.curSlot :: r.live }

/-- The cursor moves to a new block. -/
def grow (r : PoolRun) (newBlock : Nat) : PoolRun :=
  { r with pool := r.pool.allocateNewBlock newBlock, blocks := newBlock :: r.blocks }

def step (r : PoolRun) : PoolEvent → Except Fault PoolRun
  | .allocate newBlock =>
      if NeedsBlock r.pool → Placed r.blocks newBlock then .ok (r.allocate newBlock)
      else .error .notEnabled
  | .deallocate ptr =>
      if ptr ∈ r.live then
        .ok { r with pool := r.pool.deallocate ptr, live := r.live.erase ptr }
      else .error .notEnabled
  | .store address value =>
      if r.Writable address then .ok { r with pool := r.pool.setNext address value }
      else .error .notEnabled

/-- A pool after `init`. -/
def start (size : Nat) (memory : Nat → Nat) : PoolRun := ⟨.init size memory, [], []⟩

/-- The live slots overlap neither each other nor the header of a block, and writing to them
changes neither the free list nor the chain of blocks. -/
structure Separated (r : PoolRun) : Prop where
  disjoint : r.live.Pairwise (Apart r.pool.SlotSize)
  inside : ∀ slot ∈ r.live, ∃ block ∈ r.blocks,
    block + 8 ≤ slot ∧ slot + r.pool.SlotSize ≤ block + 4096
  headers : ∀ slot ∈ r.live, ∀ block ∈ r.blocks,
    slot + r.pool.SlotSize ≤ block ∨ block + 8 ≤ slot
  lists : ∃ free, Chain r.pool.memory r.pool.freeList free ∧ free.Nodup ∧
    (∀ slot ∈ r.live, slot ∉ free) ∧ Chain r.pool.memory r.pool.firstBlock r.blocks ∧
    ∀ slot ∈ r.live, ∀ address value,
      slot ≤ address → address < slot + r.pool.SlotSize →
        Chain (Function.update r.pool.memory address value) r.pool.freeList free ∧
          Chain (Function.update r.pool.memory address value) r.pool.firstBlock r.blocks

/-- What remains of the current block starts at `curSlot` and overlaps no slot. -/
def Cursor (size : Nat) (p : MemoryPool) (slots : List Nat) : List Nat → Prop
  | [] => p.curSlot = 0 ∧ p.lastSlot = 0
  | block :: _ =>
      p.lastSlot = block + 4096 - size + 1 ∧ 8 ∣ p.curSlot ∧ block + 8 ≤ p.curSlot ∧
        p.curSlot ≤ block + 4096 ∧
        ∀ slot ∈ slots, slot + size ≤ p.curSlot ∨ block + 4096 ≤ slot

/-- How a pool of slots of `size` bytes lies in memory; `free` are the slots of its free
list. -/
structure Layout (size : Nat) (r : PoolRun) (free : List Nat) : Prop where
  blockSize : r.pool.BlockSize = 4096
  slotSize : r.pool.SlotSize = size
  placed : ∀ block ∈ r.blocks, 8 ∣ block ∧ 0 < block ∧ block + 4096 < sizeModulus
  apart : r.blocks.Pairwise (Apart 4096)
  chain : Chain r.pool.memory r.pool.firstBlock r.blocks
  freed : Chain r.pool.memory r.pool.freeList free
  slots : (r.live ++ free).Pairwise (Apart size)
  within : ∀ slot ∈ r.live ++ free, 8 ∣ slot ∧
    ∃ block ∈ r.blocks, block + 8 ≤ slot ∧ slot + size ≤ block + 4096
  cursor : Cursor size r.pool (r.live ++ free) r.blocks

/-- The sizes `initMemoryPool` gives to the pools. -/
structure SlotSize (size : Nat) : Prop where
  aligned : 8 ∣ size
  positive : 0 < size
  small : size ≤ 512

/-- The pool at `i - 1` has slots of `8 * i` bytes. -/
theorem SlotSize.of_index {i : Nat} (positive : 1 ≤ i) (bound : i ≤ memoryPoolNum) :
    SlotSize (8 * i) := by
  unfold memoryPoolNum at bound
  exact ⟨Nat.dvd_mul_right 8 i, by omega, by omega⟩

variable {size : Nat} {r after : PoolRun} {free : List Nat}

/-- A cell of a slot is no header of a block. -/
theorem Layout.not_mem_blocks (layout : Layout size r free) {slot : Nat}
    (inside : slot ∈ r.live ++ free) {address : Nat} (lower : slot ≤ address)
    (upper : address < slot + size) : address ∉ r.blocks := by
  intro header
  obtain ⟨-, block, member, behind, before⟩ := layout.within slot inside
  by_cases same : address = block
  · omega
  · have apart := layout.apart.forall header member same
    unfold Apart at apart
    omega

/-- A cell of a live slot belongs to no slot of the free list. -/
theorem Layout.not_mem_free (layout : Layout size r free) {slot : Nat}
    (alive : slot ∈ r.live) {address : Nat} (lower : slot ≤ address)
    (upper : address < slot + size) : address ∉ free := by
  intro inside
  have apart := (List.pairwise_append.mp layout.slots).2.2 slot alive address inside
  unfold Apart at apart
  omega

theorem Layout.separated (layout : Layout size r free) (positive : 0 < size) : r.Separated := by
  obtain ⟨lives, frees, -⟩ := List.pairwise_append.mp layout.slots
  have inside : ∀ slot ∈ r.live, slot ∈ r.live ++ free :=
    fun slot alive => List.mem_append_left free alive
  refine ⟨?_, ?_, ?_, free, layout.freed, nodup_of_apart frees positive, ?_, layout.chain, ?_⟩
  · rw [layout.slotSize]
    exact lives
  · intro slot alive
    rw [layout.slotSize]
    exact (layout.within slot (inside slot alive)).2
  · intro slot alive other member
    obtain ⟨-, block, own, behind, before⟩ := layout.within slot (inside slot alive)
    rw [layout.slotSize]
    by_cases same : other = block
    · omega
    · have apart := layout.apart.forall member own same
      unfold Apart at apart
      omega
  · intro slot alive
    exact layout.not_mem_free alive (Nat.le_refl slot) (by omega)
  · intro slot alive address value lower upper
    rw [layout.slotSize] at upper
    exact ⟨layout.freed.update (layout.not_mem_free alive lower upper) value,
      layout.chain.update (layout.not_mem_blocks (inside slot alive) lower upper) value⟩

/-- The order in which slots are listed does not matter. -/
theorem Cursor.perm {p : MemoryPool} {slots other blocks : List Nat} (perm : slots.Perm other)
    (cursor : Cursor size p slots blocks) : Cursor size p other blocks := by
  cases blocks with
  | nil => exact cursor
  | cons block blocks =>
      obtain ⟨last, aligned, behind, before, rest⟩ := cursor
      exact ⟨last, aligned, behind, before, fun slot inside => rest slot (perm.mem_iff.mpr inside)⟩

/-- A pool with other links and the same slots, some of which have changed hands. -/
theorem Layout.of_perm (layout : Layout size r free) {live' free' : List Nat}
    {memory : Nat → Nat} {freeList : Nat} (perm : (r.live ++ free).Perm (live' ++ free'))
    (chain : Chain memory r.pool.firstBlock r.blocks) (freed : Chain memory freeList free') :
    Layout size { r with pool := { r.pool with memory, freeList }, live := live' } free' where
  blockSize := layout.blockSize
  slotSize := layout.slotSize
  placed := layout.placed
  apart := layout.apart
  chain := chain
  freed := freed
  slots := (perm.pairwise_iff Apart.symm).mp layout.slots
  within := fun slot inside => layout.within slot (perm.mem_iff.mpr inside)
  cursor := by
    have same := layout.cursor.perm perm
    cases front : r.blocks with
    | nil =>
        rw [front] at same
        exact same
    | cons block blocks =>
        rw [front] at same
        exact same

/-- `allocate` hands out a free slot if there is one, else one of the current block, else the
first one of a new block. -/
theorem allocate_cases (r : PoolRun) (newBlock : Nat) :
    (r.pool.freeList ≠ 0 ∧ r.allocate newBlock = r.pop) ∨
      (r.pool.freeList = 0 ∧ r.pool.curSlot < r.pool.lastSlot ∧
        r.allocate newBlock = r.carve) ∨
      (r.pool.freeList = 0 ∧ NeedsBlock r.pool ∧
        r.allocate newBlock = (r.grow newBlock).carve) := by
  by_cases none : r.pool.freeList = 0
  · have popped : r.pool.popFree = Option.none := by
      simp only [MemoryPool.popFree, none, ↓reduceIte]
    by_cases full : r.pool.lastSlot ≤ r.pool.curSlot
    · have needs : NeedsBlock r.pool := ⟨none, full⟩
      refine Or.inr (Or.inr ⟨none, needs, ?_⟩)
      simp only [allocate, MemoryPool.allocate, popped, MemoryPool.carve, full, needs, grow, carve,
        ↓reduceIte]
    · have enough : ¬ NeedsBlock r.pool := fun needs => full needs.2
      refine Or.inr (Or.inl ⟨none, by omega, ?_⟩)
      simp only [allocate, MemoryPool.allocate, popped, MemoryPool.carve, full, enough, carve,
        ↓reduceIte]
  · have enough : ¬ NeedsBlock r.pool := fun needs => none needs.1
    refine Or.inl ⟨none, ?_⟩
    simp only [allocate, MemoryPool.allocate, MemoryPool.popFree, none, enough, pop, ↓reduceIte]

theorem Layout.pop (layout : Layout size r free) (some : r.pool.freeList ≠ 0) :
    ∃ rest, Layout size r.pop rest := by
  obtain ⟨rest, rfl, next⟩ := layout.freed.exists_cons some
  have moved : (r.live ++ r.pool.freeList :: rest).Perm (r.pool.freeList :: r.live ++ rest) :=
    List.perm_middle
  exact ⟨rest, layout.of_perm moved layout.chain next⟩

/-- A slot that is given back goes to the front of the free list. -/
theorem Layout.deallocate (layout : Layout size r free) (positive : 0 < size) {ptr : Nat}
    (alive : ptr ∈ r.live) :
    Layout size { r with pool := r.pool.deallocate ptr, live := r.live.erase ptr }
      (ptr :: free) := by
  have outside : ptr ∉ r.blocks :=
    layout.not_mem_blocks (List.mem_append_left free alive) (Nat.le_refl ptr) (by omega)
  have fresh : ptr ∉ free := layout.not_mem_free alive (Nat.le_refl ptr) (by omega)
  obtain ⟨-, block, -, behind, -⟩ := layout.within ptr (List.mem_append_left free alive)
  have nonnull : ptr ≠ 0 := by omega
  have moved : (r.live ++ free).Perm (r.live.erase ptr ++ ptr :: free) := by
    have taken := (List.perm_cons_erase alive).append_right free
    exact taken.trans List.perm_middle.symm
  have result := layout.of_perm moved (layout.chain.update outside r.pool.freeList)
    (layout.freed.cons nonnull fresh)
  simp only [MemoryPool.deallocate, nonnull, ↓reduceIte]
  exact result

/-- A client's write changes no link. -/
theorem Layout.store (layout : Layout size r free) (positive : 0 < size) {address : Nat}
    (writable : r.Writable address) (value : Nat) :
    Layout size { r with pool := r.pool.setNext address value } free := by
  have kept : address ∉ r.blocks ∧ address ∉ free := by
    rcases writable.2 with ⟨slot, alive, lower, upper⟩ | outside
    · rw [layout.slotSize] at upper
      exact ⟨layout.not_mem_blocks (List.mem_append_left free alive) lower (by omega),
        layout.not_mem_free alive lower (by omega)⟩
    · constructor
      · intro header
        have apart := outside address header
        omega
      · intro inside
        obtain ⟨-, block, member, behind, before⟩ :=
          layout.within address (List.mem_append_right r.live inside)
        have apart := outside block member
        omega
  exact layout.of_perm (List.Perm.refl _) (layout.chain.update kept.1 value)
    (layout.freed.update kept.2 value)

/-- The block the cursor is in, as long as it has room. -/
theorem Layout.current (layout : Layout size r free)
    (room : r.pool.curSlot < r.pool.lastSlot) :
    ∃ block blocks, r.blocks = block :: blocks ∧
      r.pool.lastSlot = block + 4096 - size + 1 ∧ 8 ∣ r.pool.curSlot ∧
      block + 8 ≤ r.pool.curSlot ∧
      ∀ slot ∈ r.live ++ free, slot + size ≤ r.pool.curSlot ∨ block + 4096 ≤ slot := by
  have cursor := layout.cursor
  cases front : r.blocks with
  | nil =>
      rw [front] at cursor
      obtain ⟨current, last⟩ := cursor
      omega
  | cons block blocks =>
      rw [front] at cursor
      obtain ⟨last, aligned, behind, -, rest⟩ := cursor
      exact ⟨block, blocks, rfl, last, aligned, behind, rest⟩

/-- The current block has room for one more slot, which is handed out. -/
theorem Layout.carve (layout : Layout size r free) (sized : SlotSize size)
    (room : r.pool.curSlot < r.pool.lastSlot) :
    Layout size r.carve free := by
  obtain ⟨block, blocks, front, last, aligned, behind, rest⟩ := layout.current room
  have member : block ∈ r.blocks := by simp [front]
  have placed := (layout.placed block member).2.2
  have positive := sized.positive
  have small := sized.small
  have fits : r.pool.curSlot + size ≤ block + 4096 := by omega
  have step : r.pool.SlotSize / slotBaseSize * slotBaseSize = size := by
    rw [layout.slotSize]
    exact Nat.div_mul_cancel sized.aligned
  have next : addSize r.pool.curSlot size = r.pool.curSlot + size := addSize_eq _ _ (by omega)
  unfold PoolRun.carve
  rw [step, next]
  refine ⟨layout.blockSize, layout.slotSize, layout.placed, layout.apart, layout.chain,
    layout.freed, ?_, ?_, ?_⟩
  · rw [List.cons_append, List.pairwise_cons]
    refine ⟨fun slot inside => ?_, layout.slots⟩
    rcases rest slot inside with earlier | elsewhere
    · exact Or.inr earlier
    · exact Or.inl (by omega)
  · intro slot inside
    rw [List.cons_append, List.mem_cons] at inside
    rcases inside with rfl | old
    · exact ⟨aligned, block, member, behind, fits⟩
    · exact layout.within slot old
  · dsimp only
    rw [front]
    refine ⟨last, Nat.dvd_add aligned sized.aligned, by dsimp only; omega, fits, ?_⟩
    intro slot inside
    rw [List.cons_append, List.mem_cons] at inside
    rcases inside with rfl | old
    · exact Or.inl (Nat.le_refl _)
    · rcases rest slot old with earlier | elsewhere
      · exact Or.inl (by dsimp only; omega)
      · exact Or.inr elsewhere

/-- Where a new block puts the cursor: behind the header, at most a slot further. -/
theorem allocateNewBlock_cursor (p : MemoryPool) {newBlock : Nat} (sized : SlotSize p.SlotSize)
    (blockSize : p.BlockSize = 4096) (aligned : 8 ∣ newBlock)
    (placed : newBlock + 4096 < sizeModulus) :
    8 ∣ (p.allocateNewBlock newBlock).curSlot ∧
      newBlock + 8 ≤ (p.allocateNewBlock newBlock).curSlot ∧
      (p.allocateNewBlock newBlock).curSlot < newBlock + 8 + p.SlotSize ∧
      (p.allocateNewBlock newBlock).lastSlot = newBlock + 4096 - p.SlotSize + 1 := by
  have small := sized.small
  have positive := sized.positive
  have body : addSize newBlock slotBaseSize = newBlock + 8 :=
    addSize_eq _ _ (by unfold slotBaseSize; omega)
  have bodyAligned : 8 ∣ newBlock + 8 := Nat.dvd_add aligned (Nat.dvd_refl 8)
  have short := MemoryPool.padPointer_lt (newBlock + 8) p.SlotSize positive
  have padded := MemoryPool.padPointer_aligned (newBlock + 8) p.SlotSize bodyAligned sized.aligned
  have current : (p.allocateNewBlock newBlock).curSlot =
      newBlock + 8 + MemoryPool.padPointer (newBlock + 8) p.SlotSize := by
    simp only [MemoryPool.allocateNewBlock, MemoryPool.setNext, body]
    exact addSize_eq _ _ (by omega)
  have last : (p.allocateNewBlock newBlock).lastSlot = newBlock + 4096 - p.SlotSize + 1 := by
    have total : addSize newBlock 4096 = newBlock + 4096 := addSize_eq _ _ placed
    have room : subSize (newBlock + 4096) p.SlotSize = newBlock + 4096 - p.SlotSize :=
      subSize_eq _ _ (by omega) placed
    simp only [MemoryPool.allocateNewBlock, MemoryPool.setNext, blockSize, total, room]
    exact addSize_eq _ _ (by omega)
  rw [current, last]
  exact ⟨Nat.dvd_add bodyAligned padded, by omega, by omega, rfl⟩

/-- A pool without free slots gets a block. -/
theorem Layout.newBlock (layout : Layout size r []) (sized : SlotSize size) {newBlock : Nat}
    (placed : Placed r.blocks newBlock) :
    Layout size (r.grow newBlock) [] ∧
      (r.pool.allocateNewBlock newBlock).curSlot < (r.pool.allocateNewBlock newBlock).lastSlot := by
  obtain ⟨aligned, positive, ends, apart⟩ := placed
  have own : SlotSize r.pool.SlotSize := by
    rw [layout.slotSize]
    exact sized
  obtain ⟨cursorAligned, behind, near, last⟩ :=
    allocateNewBlock_cursor r.pool own layout.blockSize aligned ends
  rw [layout.slotSize] at near last
  have small := sized.small
  have fresh : newBlock ∉ r.blocks := by
    intro old
    have separate := apart newBlock old
    unfold Apart at separate
    omega
  unfold grow
  refine ⟨⟨layout.blockSize, layout.slotSize, ?_, ?_, ?_, rfl, layout.slots, ?_, ?_⟩, ?_⟩
  · intro block member
    rcases List.mem_cons.mp member with rfl | old
    · exact ⟨aligned, positive, ends⟩
    · exact layout.placed block old
  · exact List.pairwise_cons.mpr ⟨apart, layout.apart⟩
  · exact layout.chain.cons (Nat.ne_of_gt positive) fresh
  · intro slot inside
    obtain ⟨word, block, member, within⟩ := layout.within slot inside
    exact ⟨word, block, List.mem_cons_of_mem newBlock member, within⟩
  · refine ⟨last, cursorAligned, behind, by dsimp only; omega, ?_⟩
    intro slot inside
    obtain ⟨-, block, member, before⟩ := layout.within slot inside
    have separate := apart block member
    unfold Apart at separate
    dsimp only
    omega
  · omega

/-- `allocate` hands out a slot that is neither live nor free. -/
theorem Layout.allocate (layout : Layout size r free) (sized : SlotSize size) {newBlock : Nat}
    (placed : NeedsBlock r.pool → Placed r.blocks newBlock) :
    ∃ rest, Layout size (r.allocate newBlock) rest := by
  have freed := layout.freed
  rcases r.allocate_cases newBlock with ⟨some, popped⟩ | ⟨none, room, carved⟩ | ⟨none, needs, grown⟩
  · rw [popped]
    exact layout.pop some
  · rw [carved]
    exact ⟨free, layout.carve sized room⟩
  · rw [none] at freed
    obtain rfl := freed.eq_nil
    obtain ⟨grew, room⟩ := layout.newBlock sized (placed needs)
    rw [grown]
    exact ⟨[], grew.carve sized room⟩

theorem start_layout {size : Nat} (memory : Nat → Nat) : Layout size (start size memory) [] where
  blockSize := rfl
  slotSize := rfl
  placed := nofun
  apart := List.Pairwise.nil
  chain := rfl
  freed := rfl
  slots := List.Pairwise.nil
  within := nofun
  cursor := ⟨rfl, rfl⟩

theorem step_layout (sized : SlotSize size) {event : PoolEvent}
    (layout : ∃ free, Layout size r free) (taken : r.step event = .ok after) :
    ∃ free, Layout size after free := by
  obtain ⟨free, layout⟩ := layout
  cases event with
  | allocate newBlock =>
      obtain ⟨placed, returned⟩ := guard_ok taken
      cases returned
      exact layout.allocate sized placed
  | deallocate ptr =>
      obtain ⟨alive, returned⟩ := guard_ok taken
      cases returned
      exact ⟨_, layout.deallocate sized.positive alive⟩
  | store address value =>
      obtain ⟨writable, returned⟩ := guard_ok taken
      cases returned
      exact ⟨_, layout.store sized.positive writable value⟩

theorem reachable_layout {size : Nat} (sized : SlotSize size) {memory : Nat → Nat} {r : PoolRun}
    (reached : Reachable step (start size memory) r) : ∃ free, Layout size r free :=
  reached.preserves (fun r => ∃ free, Layout size r free)
    (fun _ _ _ layout taken => step_layout sized layout taken) ⟨[], start_layout memory⟩

/-- The destructor gives back every block once, whatever clients have stored. -/
theorem destructor_blocks {size : Nat} (sized : SlotSize size) {memory : Nat → Nat} {r : PoolRun}
    (reached : Reachable step (start size memory) r) {bound : Nat}
    (enough : r.blocks.length ≤ bound) :
    r.pool.destructor bound = r.blocks ∧ r.blocks.Nodup := by
  obtain ⟨free, layout⟩ := reachable_layout sized reached
  exact ⟨layout.chain.walk_eq enough, nodup_of_apart layout.apart (by decide)⟩

/-- After any calls that free live slots only, for every slot size of the pools and every
placement of the blocks. -/
theorem reachable_separated (i : Nat) (positive : 1 ≤ i) (bound : i ≤ memoryPoolNum)
    (memory : Nat → Nat) (events : List PoolEvent) (r : PoolRun)
    (reached : run step (start (8 * i) memory) events = .ok r) : r.Separated := by
  have sized : SlotSize (8 * i) := .of_index positive bound
  obtain ⟨free, layout⟩ := reachable_layout sized ⟨events, reached⟩
  exact layout.separated sized.positive

/-- Slots of 24 bytes: two are taken, written to and given back, and one of them is taken
again. -/
theorem reachable_separated_reuse :
    ∃ r, run step (start (8 * 3) fun _ => 0) [.allocate 4096, .allocate 0, .store 4120 99,
        .deallocate 4120, .deallocate 4144, .allocate 0] = .ok r ∧
      r.live = [4144] ∧ r.pool.freeList = 4120 ∧ r.Separated := by
  obtain ⟨r, reached, slots⟩ := (map_ok_iff _ _ _).mp
    (show (run step (start (8 * 3) fun _ => 0) [.allocate 4096, .allocate 0, .store 4120 99,
        .deallocate 4120, .deallocate 4144, .allocate 0]).map
      (fun r => (r.live, r.pool.freeList)) = .ok ([4144], 4120) by decide +kernel)
  obtain ⟨live, freeList⟩ := Prod.mk.inj slots
  exact ⟨r, reached, live, freeList,
    reachable_separated 3 (by decide) (by decide) _ _ r reached⟩

end PoolRun

end KamaWebserver
