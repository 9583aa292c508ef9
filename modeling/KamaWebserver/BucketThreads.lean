import KamaWebserver.HashBucket
import KamaWebserver.PoolSections

set_option autoImplicit false

namespace KamaWebserver

open Linked Outcome Storage Transition

/-- The pools used by several threads. As in `HashBucket` the `memory` of a pool counts only while
one of its functions runs. `large` are the addresses and sizes of the objects that come from
`operator new`. -/
structure BucketThreads where
  memory : Nat → Nat
  pools : Fin memoryPoolNum → PoolSections
  large : List (Nat × Nat)

/-- The atomic steps: `useMemory` up to the first test of `freeList_`, the further steps of its
`allocate`, `freeMemory` up to the write to the slot, and a client's write to a word of memory. -/
inductive BucketThreadEvent
  | useMemory (thread size newObject : Nat)
  | lock (thread : Nat) (index : Fin memoryPoolNum)
  | proceed (index : Fin memoryPoolNum)
  | carve (thread : Nat) (index : Fin memoryPoolNum) (newBlock : Nat)
  | freeMemory (thread ptr size : Nat)
  | store (address value : Nat)

def PoolSections.withMemory (p : PoolSections) (memory : Nat → Nat) : PoolSections :=
  { p with shared := { p.shared with pool := { p.shared.pool with memory } } }

namespace BucketThreads

/-- One of the pools, as a pool of its own. -/
def view (s : BucketThreads) (i : Fin memoryPoolNum) : PoolSections :=
  (s.pools i).withMemory s.memory

/-- The pool's functions have made of it what is given. -/
def place (s : BucketThreads) (i : Fin memoryPoolNum) (p : PoolSections) : BucketThreads :=
  { s with memory := p.shared.pool.memory, pools := Function.update s.pools i p }

/-- A step of one of the pools. -/
def onPool (s : BucketThreads) (i : Fin memoryPoolNum) (event : PoolSectionEvent) :
    Except Fault BucketThreads :=
  ((s.view i).step event).map (s.place i)

/-- The blocks a pool has been given. -/
def blocks (s : BucketThreads) (i : Fin memoryPoolNum) : List Nat := (s.pools i).shared.blocks

/-- The slots of a pool that clients hold. -/
def live (s : BucketThreads) (i : Fin memoryPoolNum) : List Nat := (s.pools i).shared.live

/-- The thread is in no call. -/
def Idle (s : BucketThreads) (thread : Nat) : Prop := ∀ i, ¬ (s.pools i).Inside thread

instance (s : BucketThreads) (thread : Nat) : Decidable (s.Idle thread) :=
  inferInstanceAs (Decidable (∀ i, ¬ (s.pools i).Inside thread))

/-- `operator new` gives memory that is in no block and no other object. -/
def Fresh (s : BucketThreads) (range : Nat × Nat) : Prop :=
  0 < range.1 ∧ (∀ i, ∀ block ∈ s.blocks i, Clear range (block, 4096)) ∧
    ∀ object ∈ s.large, Clear range object

instance (s : BucketThreads) (range : Nat × Nat) : Decidable (s.Fresh range) :=
  inferInstanceAs (Decidable (0 < range.1 ∧
    (∀ i, ∀ block ∈ s.blocks i, Clear range (block, 4096)) ∧
    ∀ object ∈ s.large, Clear range object))

/-- Clients may write to the slots they hold, and to memory that is in no pool. -/
def Writable (s : BucketThreads) (address : Nat) : Prop :=
  8 ∣ address ∧
    ((∃ i, ∃ slot ∈ s.live i,
        slot ≤ address ∧ address + 8 ≤ slot + (s.pools i).shared.pool.SlotSize) ∨
      ∀ i, ∀ block ∈ s.blocks i, address + 8 ≤ block ∨ block + 4096 ≤ address)

instance (s : BucketThreads) (address : Nat) : Decidable (s.Writable address) :=
  inferInstanceAs (Decidable (8 ∣ address ∧
    ((∃ i, ∃ slot ∈ s.live i,
        slot ≤ address ∧ address + 8 ≤ slot + (s.pools i).shared.pool.SlotSize) ∨
      ∀ i, ∀ block ∈ s.blocks i, address + 8 ≤ block ∨ block + 4096 ≤ address)))

/-- `newObject` is what `operator new` returns if it is called. -/
def useMemory (s : BucketThreads) (thread size newObject : Nat) : Except Fault BucketThreads :=
  if pooled : 0 < size ∧ size ≤ maxSlotSize then s.onPool (poolIndex size pooled) (.test thread)
  else if size = 0 then .ok s
  else if s.Fresh (newObject, size) then .ok { s with large := (newObject, size) :: s.large }
  else .error .notEnabled

/-- An object is given back under the size it was taken with. -/
def freeMemory (s : BucketThreads) (thread ptr size : Nat) : Except Fault BucketThreads :=
  if ptr = 0 then .ok s
  else if pooled : 0 < size ∧ size ≤ maxSlotSize then
    s.onPool (poolIndex size pooled) (.deallocate thread ptr)
  else if (ptr, size) ∈ s.large then .ok { s with large := s.large.erase (ptr, size) }
  else .error .notEnabled

def step (s : BucketThreads) : BucketThreadEvent → Except Fault BucketThreads
  | .useMemory thread size newObject =>
      if s.Idle thread then s.useMemory thread size newObject else .error .notEnabled
  | .lock thread index => s.onPool index (.lock thread)
  | .proceed index => s.onPool index .proceed
  | .carve thread index newBlock =>
      if (s.view index).shared.pool.lastSlot ≤ (s.view index).shared.pool.curSlot →
          s.Fresh (newBlock, 4096) then
        s.onPool index (.carve thread newBlock)
      else .error .notEnabled
  | .freeMemory thread ptr size =>
      if s.Idle thread then s.freeMemory thread ptr size else .error .notEnabled
  | .store address value =>
      if s.Writable address then .ok { s with memory := Function.update s.memory address value }
      else .error .notEnabled

/-- All pools after `initMemoryPool`. -/
def start (memory : Nat → Nat) : BucketThreads :=
  ⟨memory, fun i => .start ((i + 1) * slotBaseSize) memory, []⟩

/-- What has been handed out and not been given back, each with the room it has. -/
def objects (s : BucketThreads) : List (Nat × Nat) :=
  s.large ++ (List.finRange memoryPoolNum).flatMap fun i =>
    (s.live i).map fun slot => (slot, (s.pools i).shared.pool.SlotSize)

/-- Some thread is about to read `freeList_->next` of the pool through a null pointer. -/
def Doomed (s : BucketThreads) (i : Fin memoryPoolNum) : Prop := (s.pools i).Doomed

/-- A step that fails is not enabled, or such a thread has come to its read. -/
def Faults (s : BucketThreads) (fault : Fault) : Prop :=
  fault = .notEnabled ∨ fault = .nullPointer ∧ ∃ i, s.Doomed i

/-- No pool gets a new block while a thread relies on its test of the pool's `freeList_`. -/
def Guard (s : BucketThreads) (event : BucketThreadEvent) : Prop :=
  ∀ after, s.step event = .ok after → ∀ i, (s.pools i).Reading → after.blocks i = s.blocks i

/-- Objects overlap neither each other nor what the pools keep in memory, the headers of blocks and
the slots that are free; the slots in a free list, as the thread that holds its lock will leave it,
are distinct slots of its pool that have been handed out before; and the destructors find every
block. -/
structure Separated (s : BucketThreads) : Prop where
  objects : s.objects.Pairwise Clear
  headers : ∀ object ∈ s.objects, ∀ i, ∀ block ∈ s.blocks i, Clear object (block, slotBaseSize)
  free : ∀ i, ∃ free, Chain s.memory (s.pools i).settled.pool.freeList free ∧ free.Nodup ∧
    ∀ slot ∈ free, slot ∈ (s.pools i).handed ∧
      (∃ block ∈ s.blocks i, block + slotBaseSize ≤ slot ∧
        slot + (s.pools i).shared.pool.SlotSize ≤ block + 4096) ∧
      ∀ object ∈ s.objects, Clear object (slot, (s.pools i).shared.pool.SlotSize)
  destructor : ∀ i bound, (s.blocks i).length ≤ bound →
    (s.view i).shared.pool.destructor bound = s.blocks i ∧ (s.blocks i).Nodup

/-- Each pool keeps the account of its slots, and no block or object of `operator new` overlaps a
block. -/
structure Inv (s : BucketThreads) : Prop where
  accounted : ∀ i : Fin memoryPoolNum, ∃ lost,
    (s.view i).Accounted ((i + 1) * slotBaseSize) lost
  reads : ∀ i, (s.pools i).Reads
  apart : ∀ i j, i ≠ j → ∀ block ∈ s.blocks i, ∀ other ∈ s.blocks j, Apart 4096 block other
  large : s.large.Pairwise Clear
  outside : ∀ object ∈ s.large, ∀ i, ∀ block ∈ s.blocks i, Clear object (block, 4096)

/-- Another pool sees a word outside its blocks change. -/
theorem accounted_confined {size : Nat} {lost : List Nat} {v : PoolSections}
    (sized : PoolRun.SlotSize size) (accounted : v.Accounted size lost) {blocks : List Nat}
    {memory : Nat → Nat} (confined : BucketRun.Confined blocks v.shared.pool.memory memory)
    (apart : ∀ block ∈ blocks, ∀ own ∈ v.shared.blocks, Apart 4096 block own) :
    (v.withMemory memory).Accounted size lost := by
  rcases confined with kept | ⟨address, value, written, word, block, inside, lower, upper⟩
  · rw [kept]
    exact accounted
  · have outside : ∀ own ∈ v.shared.blocks, address + 8 ≤ own ∨ own + 4096 ≤ address := by
      intro own member
      have separate := apart block inside own member
      unfold Apart at separate
      omega
    rw [written]
    exact accounted.store sized ⟨word, Or.inr outside⟩ value

/-- What clients hold, and perhaps a slot that is on its way to one. -/
theorem live_sublist (v : PoolSections) : v.shared.live.Sublist v.settled.live := by
  unfold PoolSections.settled
  split
  · exact List.sublist_cons_self _ _
  · exact List.Sublist.refl _
  · exact List.Sublist.refl _
  · exact List.Sublist.refl _
  · exact List.Sublist.refl _

@[simp] theorem settled_blocks (v : PoolSections) : v.settled.blocks = v.shared.blocks := by
  unfold PoolSections.settled
  split <;> rfl

@[simp] theorem settled_slotSize (v : PoolSections) :
    v.settled.pool.SlotSize = v.shared.pool.SlotSize := by
  unfold PoolSections.settled
  split <;> rfl

@[simp] theorem settled_memory (v : PoolSections) :
    v.settled.pool.memory = v.shared.pool.memory := by
  unfold PoolSections.settled
  split <;> rfl

@[simp] theorem settled_firstBlock (v : PoolSections) :
    v.settled.pool.firstBlock = v.shared.pool.firstBlock := by
  unfold PoolSections.settled
  split <;> rfl

/-- A step of a pool, other than a client's write, writes at most one word of its blocks. -/
theorem step_confined {size : Nat} {lost : List Nat} {v p : PoolSections}
    (sized : PoolRun.SlotSize size) (accounted : v.Accounted size lost) {event : PoolSectionEvent}
    (own : ∀ address value, event ≠ .store address value) (taken : v.step event = .ok p) :
    BucketRun.Confined p.shared.blocks v.shared.pool.memory p.shared.pool.memory := by
  cases event with
  | test thread =>
      obtain ⟨-, made⟩ := guard_ok taken
      cases made
      obtain ⟨_, _, same⟩ := v.test_eq thread
      rw [same]
      exact Or.inl rfl
  | lock thread =>
      obtain ⟨-, made⟩ := guard_ok taken
      cases made
      obtain ⟨_, _, same⟩ | ⟨-, _, same⟩ := v.lock_cases thread
      · rw [same]
        exact Or.inl rfl
      · rw [same]
        exact Or.inl rfl
  | proceed =>
      left
      obtain ⟨_, -, rfl⟩ | ⟨_, _, -, -, rfl⟩ | ⟨-, settles, -⟩ := PoolSections.proceed_cases taken
      · rfl
      · rfl
      · rw [← settled_memory p, settles, settled_memory]
  | carve thread newBlock =>
      obtain ⟨⟨-, placed⟩, made⟩ := guard_ok taken
      cases made
      by_cases full : v.shared.pool.lastSlot ≤ v.shared.pool.curSlot
      · simp only [PoolThreads.carved, MemoryPool.carve, full, ↓reduceIte]
        exact Or.inr ⟨newBlock, v.shared.pool.firstBlock, rfl, (placed full).1, newBlock,
          List.mem_cons_self, Nat.le_refl newBlock, by omega⟩
      · simp only [PoolThreads.carved, MemoryPool.carve, full, ↓reduceIte]
        exact Or.inl rfl
  | deallocate thread ptr =>
      obtain ⟨⟨-, -, alive⟩, made⟩ := guard_ok taken
      cases made
      obtain ⟨free, layout, -⟩ := accounted
      obtain ⟨word, block, inside, behind, before⟩ :=
        layout.within ptr
          (List.mem_append_left _ (List.mem_append_left _ ((live_sublist v).mem alive)))
      rw [settled_blocks] at inside
      have positive := sized.positive
      have aligned := sized.aligned
      exact Or.inr ⟨ptr, v.shared.pool.freeList, rfl, word, block, inside, by omega, by omega⟩
  | store address value => exact absurd rfl (own address value)

variable {s after : BucketThreads} {i j : Fin memoryPoolNum} {p : PoolSections}

/-- The free list is not in the memory the pools share. -/
theorem view_freeList (s : BucketThreads) (i : Fin memoryPoolNum) :
    (s.view i).settled.pool.freeList = (s.pools i).settled.pool.freeList := by
  unfold view PoolSections.withMemory PoolSections.settled
  cases (s.pools i).holder with
  | none => rfl
  | some holder => cases holder <;> rfl

@[simp] theorem view_place (s : BucketThreads) (i : Fin memoryPoolNum) (p : PoolSections) :
    (s.place i p).view i = p := by
  simp [view, place, PoolSections.withMemory]

/-- Another pool sees only what has become of the memory. -/
theorem view_place_of_ne (other : j ≠ i) :
    (s.place i p).view j = (s.view j).withMemory p.shared.pool.memory := by
  simp [view, place, PoolSections.withMemory, Function.update_of_ne other]

theorem place_blocks_of_ne (other : j ≠ i) : (s.place i p).blocks j = s.blocks j := by
  simp [blocks, place, Function.update_of_ne other]

@[simp] theorem place_blocks (s : BucketThreads) (i : Fin memoryPoolNum) (p : PoolSections) :
    (s.place i p).blocks i = p.shared.blocks := by
  simp [blocks, place]

theorem place_pools_self (s : BucketThreads) (i : Fin memoryPoolNum) (p : PoolSections) :
    (s.place i p).pools i = p :=
  Function.update_self ..

theorem place_pools_of_ne (other : j ≠ i) : (s.place i p).pools j = s.pools j :=
  Function.update_of_ne other ..

/-- One pool takes a step of its own. -/
theorem Inv.own (inv : s.Inv) {event : PoolSectionEvent}
    (own : ∀ address value, event ≠ .store address value)
    (taken : (s.view i).step event = .ok p)
    (fresh : ∀ block ∈ p.shared.blocks, block ∈ s.blocks i ∨ s.Fresh (block, 4096)) :
    (s.place i p).Inv := by
  have sized := BucketRun.slotSize_of_pool i
  obtain ⟨lost, accounted⟩ := inv.accounted i
  have reads : (s.view i).Reads := inv.reads i
  obtain ⟨⟨dropped, kept⟩, later⟩ := PoolSections.step_accounted accounted sized reads taken
  have confined := step_confined sized accounted own taken
  have apart : ∀ j, j ≠ i → ∀ block ∈ p.shared.blocks, ∀ other ∈ s.blocks j,
      Apart 4096 block other := by
    intro j other block inside old member
    rcases fresh block inside with known | new
    · exact inv.apart i j other.symm block known old member
    · exact new.2.1 j old member
  refine ⟨fun j => ?_, fun j => ?_, fun first second different => ?_, inv.large,
    fun object inside j => ?_⟩
  · by_cases same : j = i
    · subst same
      rw [view_place]
      exact ⟨_, kept⟩
    · obtain ⟨lost, accounted⟩ := inv.accounted j
      rw [view_place_of_ne same]
      exact ⟨lost, accounted_confined (BucketRun.slotSize_of_pool j) accounted confined
        fun block inside own member => apart j same block inside own member⟩
  · by_cases same : j = i
    · subst same
      rw [place_pools_self]
      exact later
    · rw [place_pools_of_ne same]
      exact inv.reads j
  · by_cases one : first = i
    · subst one
      rw [place_blocks, place_blocks_of_ne different.symm]
      exact apart second different.symm
    · rw [place_blocks_of_ne one]
      by_cases two : second = i
      · subst two
        rw [place_blocks]
        exact fun block inside other member => (apart first one other member block inside).symm
      · rw [place_blocks_of_ne two]
        exact inv.apart first second different
  · by_cases same : j = i
    · subst same
      rw [place_blocks]
      intro block member
      rcases fresh block member with known | new
      · exact inv.outside object inside j block known
      · exact (new.2.2 object inside).symm
    · rw [place_blocks_of_ne same]
      exact inv.outside object inside j

theorem Inv.onPool (inv : s.Inv) {event : PoolSectionEvent}
    (own : ∀ address value, event ≠ .store address value)
    (fresh : ∀ thread newBlock, event = .carve thread newBlock →
      (s.view i).shared.pool.lastSlot ≤ (s.view i).shared.pool.curSlot →
        s.Fresh (newBlock, 4096)) :
    Spec s.Faults Inv (s.onPool i event) := by
  have refused := (s.view i).step_fails event
  unfold BucketThreads.onPool
  cases stepped : (s.view i).step event with
  | error fault =>
      exact (refused.of_error stepped).imp_right (And.imp_right fun doomed => ⟨i, doomed⟩)
  | ok p =>
      refine inv.own own stepped fun block inside => ?_
      rcases PoolSections.step_blocks stepped with known | ⟨full, thread, newBlock, rfl, taken, -⟩
      · rw [known] at inside
        exact Or.inl inside
      · rw [taken] at inside
        rcases List.mem_cons.mp inside with rfl | known
        · exact Or.inr (fresh thread block rfl full)
        · exact Or.inl known

theorem Inv.useMemory (inv : s.Inv) (thread size newObject : Nat) :
    Spec s.Faults Inv (s.useMemory thread size newObject) := by
  unfold BucketThreads.useMemory
  split
  · exact inv.onPool (fun _ _ same => by cases same) fun _ _ same => by cases same
  · split
    · exact inv
    · refine .guard (fun fresh => ⟨inv.accounted, inv.reads, inv.apart, ?_, ?_⟩) (Or.inl rfl)
      · exact List.pairwise_cons.mpr ⟨fresh.2.2, inv.large⟩
      · exact List.forall_mem_cons.mpr ⟨fresh.2.1, inv.outside⟩

theorem Inv.freeMemory (inv : s.Inv) (thread ptr size : Nat) :
    Spec s.Faults Inv (s.freeMemory thread ptr size) := by
  unfold BucketThreads.freeMemory
  split
  · exact inv
  · split
    · exact inv.onPool (fun _ _ same => by cases same) fun _ _ same => by cases same
    · refine .guard (fun _ => ⟨inv.accounted, inv.reads, inv.apart, ?_, ?_⟩) (Or.inl rfl)
      · exact inv.large.sublist (List.erase_sublist ..)
      · exact fun object inside => inv.outside object (List.mem_of_mem_erase inside)

/-- How the slots of a pool lie: those that clients hold, and those in its free list as the thread
that holds the lock will leave it. -/
theorem Inv.layout (inv : s.Inv) (i : Fin memoryPoolNum) :
    ∃ lost free, PoolRun.Layout ((i + 1) * slotBaseSize)
      { (s.view i).settled with live := (s.view i).settled.live ++ lost } free ∧
        ∀ slot ∈ free, slot ∈ (s.pools i).handed := by
  obtain ⟨lost, free, layout, handed⟩ := inv.accounted i
  exact ⟨lost, free, layout, fun slot unused =>
    handed.mem_iff.mpr (List.mem_append_right _ unused)⟩

theorem Inv.slotSize (inv : s.Inv) (i : Fin memoryPoolNum) :
    (s.pools i).shared.pool.SlotSize = (i + 1) * slotBaseSize := by
  obtain ⟨lost, free, layout, -⟩ := inv.layout i
  have size := layout.slotSize
  rw [settled_slotSize] at size
  exact size

/-- A held slot is among those of the account. -/
theorem mem_settled_of_live {slot : Nat} (held : slot ∈ s.live i) (lost : List Nat) :
    slot ∈ (s.view i).settled.live ++ lost :=
  List.mem_append_left lost ((live_sublist (s.view i)).mem held)

/-- A held slot lies behind the header of a block of its pool. -/
theorem Inv.within (inv : s.Inv) {slot : Nat} (held : slot ∈ s.live i) :
    ∃ block ∈ s.blocks i, block + slotBaseSize ≤ slot ∧
      slot + (s.pools i).shared.pool.SlotSize ≤ block + 4096 := by
  obtain ⟨lost, free, layout, -⟩ := inv.layout i
  rw [inv.slotSize]
  obtain ⟨-, block, inside, lies⟩ :=
    layout.within slot (List.mem_append_left free (mem_settled_of_live held lost))
  rw [settled_blocks] at inside
  exact ⟨block, inside, lies⟩

/-- What lies in a block overlaps no object outside the pools and no slot of another pool. -/
theorem Inv.clear_of_block (inv : s.Inv) {block : Nat} (inside : block ∈ s.blocks i)
    {part : Nat × Nat} (lower : block ≤ part.1) (upper : part.1 + part.2 ≤ block + 4096)
    {object : Nat × Nat} (held : object ∈ s.large ∨ ∃ j, j ≠ i ∧ ∃ slot ∈ s.live j,
      object = (slot, (s.pools j).shared.pool.SlotSize)) : Clear object part := by
  rcases held with big | ⟨j, other, slot, live, rfl⟩
  · exact (inv.outside object big i block inside).part lower upper
  · obtain ⟨own, member, behind, before⟩ := inv.within live
    have separate := inv.apart j i other own member block inside
    unfold Apart at separate
    unfold Clear
    omega

theorem Inv.store (inv : s.Inv) {address : Nat} (writable : s.Writable address) (value : Nat) :
    BucketThreads.Inv { s with memory := Function.update s.memory address value } := by
  refine ⟨fun j => ?_, inv.reads, inv.apart, inv.large, inv.outside⟩
  obtain ⟨lost, accounted⟩ := inv.accounted j
  have own : (s.view j).shared.Writable address := by
    refine ⟨writable.1, ?_⟩
    rcases writable.2 with ⟨i, slot, alive, lower, upper⟩ | outside
    · by_cases same : i = j
      · subst same
        exact Or.inl ⟨slot, alive, lower, upper⟩
      · obtain ⟨block, inside, behind, before⟩ := inv.within alive
        refine Or.inr fun other member => ?_
        have separate := inv.apart i j same block inside other member
        unfold Apart at separate
        omega
    · exact Or.inr (outside j)
  exact ⟨lost, accounted.store (BucketRun.slotSize_of_pool j) own value⟩

theorem mem_objects {object : Nat × Nat} :
    object ∈ s.objects ↔ object ∈ s.large ∨
      ∃ i, ∃ slot ∈ s.live i, object = (slot, (s.pools i).shared.pool.SlotSize) := by
  simp [objects, eq_comm]

/-- What holds of the objects of one pool and of all others holds of all. -/
theorem forall_objects (i : Fin memoryPoolNum) (good : Nat × Nat → Prop)
    (own : ∀ slot ∈ s.live i, good (slot, (s.pools i).shared.pool.SlotSize))
    (others : ∀ object, (object ∈ s.large ∨ ∃ j, j ≠ i ∧ ∃ slot ∈ s.live j,
      object = (slot, (s.pools j).shared.pool.SlotSize)) → good object) :
    ∀ object ∈ s.objects, good object := by
  intro object held
  rcases mem_objects.mp held with big | ⟨j, slot, live, rfl⟩
  · exact others object (Or.inl big)
  · by_cases same : j = i
    · subst same
      exact own slot live
    · exact others _ (Or.inr ⟨j, same, slot, live, rfl⟩)

theorem Inv.objects (inv : s.Inv) : s.objects.Pairwise Clear := by
  refine List.pairwise_append.mpr ⟨inv.large, List.pairwise_flatMap.mpr ⟨?_, ?_⟩, ?_⟩
  · intro i _
    obtain ⟨lost, free, layout, -⟩ := inv.layout i
    have slots := (List.pairwise_append.mp (List.pairwise_append.mp layout.slots).1).1
    refine List.pairwise_map.mpr ((slots.sublist (live_sublist (s.view i))).imp fun apart => ?_)
    rw [inv.slotSize]
    exact apart
  · refine (List.nodup_finRange memoryPoolNum).imp fun {i j} different => ?_
    intro first one second two
    obtain ⟨slot, live, rfl⟩ := List.mem_map.mp one
    obtain ⟨other, live', rfl⟩ := List.mem_map.mp two
    obtain ⟨block, inside, behind, before⟩ := inv.within live'
    exact inv.clear_of_block inside (by dsimp only; omega) before
      (Or.inr ⟨i, different, slot, live, rfl⟩)
  · intro object big second two
    obtain ⟨i, -, member⟩ := List.mem_flatMap.mp two
    obtain ⟨slot, live, rfl⟩ := List.mem_map.mp member
    obtain ⟨block, inside, behind, before⟩ := inv.within live
    exact inv.clear_of_block inside (by dsimp only; omega) before (Or.inl big)

theorem Inv.separated (inv : s.Inv) : s.Separated := by
  refine ⟨inv.objects, fun object held i block inside => ?_, fun i => ?_, fun i bound enough => ?_⟩
  · obtain ⟨lost, free, layout, -⟩ := inv.layout i
    have headers := (layout.separated (BucketRun.slotSize_of_pool i).positive).headers
    refine forall_objects i (fun object => Clear object (block, slotBaseSize))
      (fun slot live => ?_) (fun object others => ?_) object held
    · have clear := headers slot (mem_settled_of_live live lost) block
        (by rw [settled_blocks]; exact inside)
      rw [settled_slotSize] at clear
      exact clear
    · exact inv.clear_of_block inside (Nat.le_refl block) (by simp [slotBaseSize]) others
  · obtain ⟨lost, free, layout, handed⟩ := inv.layout i
    have slots := List.pairwise_append.mp layout.slots
    have positive := (BucketRun.slotSize_of_pool i).positive
    have freed := layout.freed
    rw [settled_memory, view_freeList] at freed
    refine ⟨free, freed, nodup_of_apart slots.2.1 positive, fun slot unused => ?_⟩
    obtain ⟨-, block, inside, behind, before⟩ :=
      layout.within slot (List.mem_append_right _ unused)
    rw [settled_blocks] at inside
    rw [← inv.slotSize] at before
    refine ⟨handed slot unused, ⟨block, inside, behind, before⟩,
      forall_objects i _ (fun other live => ?_) (fun object others => ?_)⟩
    · rw [inv.slotSize]
      exact slots.2.2 other (mem_settled_of_live live lost) slot unused
    · exact inv.clear_of_block inside (by dsimp only; omega) before others
  · obtain ⟨lost, free, layout, -⟩ := inv.layout i
    have chain := layout.chain
    rw [settled_memory, settled_firstBlock] at chain
    rw [settled_blocks] at chain
    have apart := layout.apart
    rw [settled_blocks] at apart
    exact ⟨chain.walk_eq enough, nodup_of_apart apart (by decide)⟩

theorem start_inv (memory : Nat → Nat) : (start memory).Inv := by
  refine ⟨fun i => ⟨[], PoolSections.start_accounted memory⟩, fun i => ?_, ?_,
    List.Pairwise.nil, ?_⟩
  · intro thread temp held
    cases held
  · intro i j _ block inside
    cases inside
  · intro object inside
    cases inside

theorem step_inv (inv : s.Inv) (event : BucketThreadEvent) :
    Spec s.Faults Inv (s.step event) := by
  cases event with
  | useMemory thread size newObject =>
      exact .guard (fun _ => inv.useMemory thread size newObject) (Or.inl rfl)
  | lock thread index =>
      exact inv.onPool (fun _ _ same => by cases same) fun _ _ same => by cases same
  | proceed index =>
      exact inv.onPool (fun _ _ same => by cases same) fun _ _ same => by cases same
  | carve thread index newBlock =>
      refine .guard (fun fresh => inv.onPool (fun _ _ same => by cases same) ?_) (Or.inl rfl)
      intro thread newBlock same full
      cases same
      exact fresh full
  | freeMemory thread ptr size =>
      exact .guard (fun _ => inv.freeMemory thread ptr size) (Or.inl rfl)
  | store address value => exact .guard (fun writable => inv.store writable value) (Or.inl rfl)

/-- A step changes one pool, or none. -/
theorem step_cases {event : BucketThreadEvent} (taken : s.step event = .ok after) :
    after.pools = s.pools ∨
      ∃ i own p, (s.view i).step own = .ok p ∧ after = s.place i p := by
  have placed {i : Fin memoryPoolNum} {own : PoolSectionEvent}
      (taken : s.onPool i own = .ok after) :
      ∃ i own p, (s.view i).step own = .ok p ∧ after = s.place i p := by
    obtain ⟨p, stepped, made⟩ := (map_ok_iff _ _ _).mp taken
    exact ⟨i, own, p, stepped, made.symm⟩
  cases event with
  | useMemory thread size newObject =>
      obtain ⟨-, taken⟩ := guard_ok taken
      unfold BucketThreads.useMemory at taken
      split at taken
      · exact Or.inr (placed taken)
      · split at taken
        · cases taken
          exact Or.inl rfl
        · obtain ⟨-, made⟩ := guard_ok taken
          cases made
          exact Or.inl rfl
  | lock thread index => exact Or.inr (placed taken)
  | proceed index => exact Or.inr (placed taken)
  | carve thread index newBlock =>
      obtain ⟨-, taken⟩ := guard_ok taken
      exact Or.inr (placed taken)
  | freeMemory thread ptr size =>
      obtain ⟨-, taken⟩ := guard_ok taken
      unfold BucketThreads.freeMemory at taken
      split at taken
      · cases taken
        exact Or.inl rfl
      · split at taken
        · exact Or.inr (placed taken)
        · obtain ⟨-, made⟩ := guard_ok taken
          cases made
          exact Or.inl rfl
  | store address value =>
      obtain ⟨-, made⟩ := guard_ok taken
      cases made
      exact Or.inl rfl

theorem step_not_doomed {event : BucketThreadEvent} (taken : s.step event = .ok after)
    (sound : ∀ i, ¬ s.Doomed i) (guarded : s.Guard event) (i : Fin memoryPoolNum) :
    ¬ after.Doomed i := by
  rcases step_cases taken with same | ⟨j, own, p, stepped, placed⟩
  · unfold Doomed
    rw [same]
    exact sound i
  · by_cases here : i = j
    · subst here
      have kept := guarded after taken i
      rw [placed, place_blocks] at kept
      rw [placed, Doomed, place_pools_self]
      exact PoolSections.step_not_doomed stepped (sound i) kept
    · rw [placed, Doomed, place_pools_of_ne here]
      exact sound i

theorem step_doomed {event : BucketThreadEvent} (taken : s.step event = .ok after)
    (reading : (s.pools i).Reading) (grown : after.blocks i ≠ s.blocks i) : after.Doomed i := by
  rcases step_cases taken with same | ⟨j, own, p, stepped, placed⟩
  · refine absurd ?_ grown
    unfold blocks
    rw [same]
  · by_cases here : i = j
    · subst here
      rw [placed, place_blocks] at grown
      rw [placed, Doomed, place_pools_self]
      exact PoolSections.step_doomed stepped reading grown
    · refine absurd ?_ grown
      rw [placed, place_blocks_of_ne here]

/-- The thread that holds a pool's lock fails where it would fail with the pool alone. -/
theorem proceeds_fail {fault : Fault} (count : Nat)
    (fails : run PoolSections.step (s.view i) (List.replicate count .proceed) = .error fault) :
    run step s (List.replicate count (.proceed i)) = .error fault := by
  induction count generalizing s with
  | zero => cases fails
  | succ count ih =>
      rw [List.replicate_succ, run] at fails ⊢
      simp only [step, onPool]
      cases moved : (s.view i).step .proceed with
      | error other =>
          rw [moved] at fails
          cases fails
          rfl
      | ok p =>
          rw [moved] at fails
          refine ih ?_
          rw [view_place]
          exact fails

/-- The thread goes through the null pointer within two steps. -/
theorem Doomed.faults (doomed : s.Doomed i) :
    run step s [.proceed i, .proceed i] = .error .nullPointer :=
  proceeds_fail 2 (PoolSections.Doomed.faults doomed)

/-- Any number of threads share the 64 pools and `operator new`: in every interleaving of their
steps, of which those under one lock do not exclude those under the other, no two objects overlap,
no object overlaps what the pools keep, and every block is given back in the end. A step fails only
where a thread reads `freeList_->next` of a list that has been reset since it tested it; this does
not happen exactly as long as no pool takes a new block between another thread's test and read. -/
theorem runs_separated (memory : Nat → Nat) (events : List BucketThreadEvent) :
    Always step Separated (fun fault => fault = .notEnabled ∨ fault = .nullPointer)
        (start memory) events ∧
      (Always step (fun s => ∀ i, ¬ s.Doomed i) (· = Fault.notEnabled) (start memory) events ↔
        Guarded step Guard (start memory) events) ∧
      ∀ s i, Doomed s i → run step s [.proceed i, .proceed i] = .error .nullPointer := by
  refine ⟨?_, ?_, fun s i doomed => doomed.faults⟩
  · refine always_of_guarded Inv (fun _ inv => inv.separated) (fun s event inv _ => ?_)
      (start_inv memory) (guarded_true _ events)
    exact (step_inv inv event).allow fun _ faults => faults.imp_right And.left
  · refine always_iff_guarded (fun s : BucketThreads => s.Inv ∧ ∀ i, ¬ s.Doomed i)
      (fun _ inv => inv.2)
      ?_ ?_ ?_ ?_ ⟨start_inv memory, fun i doomed => doomed.1⟩ events
    · intro s event next inv guarded taken
      exact ⟨(step_inv inv.1 event).of_ok taken, step_not_doomed taken inv.2 guarded⟩
    · intro s event fault inv _ failed
      refine ((step_inv inv.1 event).of_error failed).resolve_right ?_
      rintro ⟨-, i, doomed⟩
      exact inv.2 i doomed
    · intro s event next _ unguarded taken sound
      refine unguarded fun after again i reading => ?_
      obtain rfl := Except.ok.inj (again.symm.trans taken)
      by_contra grown
      exact sound i (step_doomed taken reading grown)
    · intro s event fault _ unguarded failed
      refine absurd (fun after taken => ?_) unguarded
      rw [failed] at taken
      cases taken

end BucketThreads

end KamaWebserver
