import KamaWebserver.Basic
import KamaWebserver.Library.Linked

set_option autoImplicit false

namespace KamaWebserver

/-- `MEMORY_POOL_NUM`. -/
def memoryPoolNum : Nat := 64

/-- `SLOT_BASE_SIZE`, which is also `sizeof(Slot)` and `sizeof(Slot*)`. -/
def slotBaseSize : Nat := 8

/-- The memory is seen through its aligned words: `memory` gives the word at an address
divisible by eight. A null pointer is zero. -/
structure MemoryPool where
  BlockSize : Nat
  SlotSize : Nat
  firstBlock : Nat
  curSlot : Nat
  freeList : Nat
  lastSlot : Nat
  memory : Nat → Nat

namespace MemoryPool

/-- The constructor's default argument and `init`. -/
def init (size : Nat) (memory : Nat → Nat) : MemoryPool where
  BlockSize := 4096
  SlotSize := size
  firstBlock := 0
  curSlot := 0
  freeList := 0
  lastSlot := 0
  memory := memory

/-- `reinterpret_cast<Slot*>(address)->next = value`. -/
def setNext (p : MemoryPool) (address value : Nat) : MemoryPool :=
  { p with memory := Function.update p.memory address value }

def padPointer (p align : Nat) : Nat := subSize align p % align

/-- `newBlock` is what `operator new` returned. -/
def allocateNewBlock (p : MemoryPool) (newBlock : Nat) : MemoryPool :=
  let p := p.setNext newBlock p.firstBlock
  let body := addSize newBlock slotBaseSize
  let paddingSize := padPointer body p.SlotSize
  { p with
    firstBlock := newBlock
    curSlot := addSize body paddingSize
    lastSlot := addSize (subSize (addSize newBlock p.BlockSize) p.SlotSize) 1
    freeList := 0 }

/-- The step of `allocate` under `mutexForFreeList_`. -/
def popFree (p : MemoryPool) : Option (Nat × MemoryPool) :=
  if p.freeList = 0 then none else some (p.freeList, { p with freeList := p.memory p.freeList })

/-- The step of `allocate` under `mutexForBlock_`. -/
def carve (p : MemoryPool) (newBlock : Nat) : Nat × MemoryPool :=
  let p := if p.lastSlot ≤ p.curSlot then p.allocateNewBlock newBlock else p
  (p.curSlot, { p with curSlot := addSize p.curSlot (p.SlotSize / slotBaseSize * slotBaseSize) })

def allocate (p : MemoryPool) (newBlock : Nat) : Nat × MemoryPool :=
  match p.popFree with
  | some result => result
  | none => p.carve newBlock

def deallocate (p : MemoryPool) (ptr : Nat) : MemoryPool :=
  if ptr = 0 then p else { p.setNext ptr p.freeList with freeList := ptr }

/-- The blocks `~MemoryPool` gives back, in its order, if there are no more than `bound`. -/
def destructor (p : MemoryPool) (bound : Nat) : List Nat :=
  Linked.walk p.memory bound p.firstBlock

theorem padPointer_lt (p align : Nat) (positive : 0 < align) : padPointer p align < align :=
  Nat.mod_lt _ positive

/-- Padding keeps word alignment, whatever the slot size is otherwise. -/
theorem padPointer_aligned (p align : Nat) (address : 8 ∣ p) (size : 8 ∣ align) :
    8 ∣ padPointer p align := by
  have word : 8 ∣ sizeModulus := by decide
  rw [padPointer, Nat.dvd_mod_iff size, subSize, Nat.dvd_mod_iff word]
  exact Nat.dvd_add size (Nat.dvd_sub word address)

end MemoryPool

end KamaWebserver
