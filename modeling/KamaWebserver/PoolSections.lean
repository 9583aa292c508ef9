import KamaWebserver.PoolConcurrency

set_option autoImplicit false

namespace KamaWebserver

open Linked Outcome Storage Transition

/-- The thread that holds `mutexForFreeList_` and what it has read: in `allocate` behind the second
test of `freeList_`, behind `temp` and behind `freeList_->next`, in `deallocate` behind the write to
the slot. -/
inductive FreeListHolder
  | tested (thread : Nat)
  | read (thread temp : Nat)
  | loaded (thread temp next : Nat)
  | linked (thread ptr : Nat)
  deriving DecidableEq

def FreeListHolder.thread : FreeListHolder → Nat
  | .tested thread | .read thread _ | .loaded thread _ _ | .linked thread _ => thread

/-- A pool used by several threads, with every access to `freeList_` a step of its own.
`mutexForFreeList_` and `mutexForBlock_` do not exclude each other. `waiting` are the threads whose
`allocate` wants the first, `between` those it has sent on to the second; `handed` are the slots
carved from blocks and handed out, newest first. -/
structure PoolSections where
  shared : PoolRun
  waiting : List Nat
  between : List Nat
  holder : Option FreeListHolder
  handed : List Nat

/-- The first test of `allocate`, its second one under the lock, the next step of the thread that
holds the lock, the block step, the first steps of `deallocate`, and a client's write to a word of
memory. What the block step does besides `freeList_ = nullptr` no other thread reads or writes. -/
inductive PoolSectionEvent
  | test (thread : Nat)
  | lock (thread : Nat)
  | proceed
  | carve (thread newBlock : Nat)
  | deallocate (thread ptr : Nat)
  | store (address value : Nat)

namespace PoolSections

/-- Nothing carved and no thread in a call. -/
def start (size : Nat) (memory : Nat → Nat) : PoolSections :=
  ⟨.start size memory, [], [], none, []⟩

/-- The thread is inside `allocate` or `deallocate`. -/
def Inside (s : PoolSections) (thread : Nat) : Prop :=
  thread ∈ s.waiting ∨ thread ∈ s.between ∨ s.holder.map FreeListHolder.thread = some thread

instance (s : PoolSections) (thread : Nat) : Decidable (s.Inside thread) :=
  inferInstanceAs (Decidable (_ ∨ _ ∨ _))

def test (s : PoolSections) (thread : Nat) : PoolSections :=
  if s.shared.pool.freeList = 0 then { s with between := thread :: s.between }
  else { s with waiting := thread :: s.waiting }

def lock (s : PoolSections) (thread : Nat) : PoolSections :=
  if s.shared.pool.freeList = 0 then
    { s with waiting := s.waiting.erase thread, between := thread :: s.between }
  else { s with waiting := s.waiting.erase thread, holder := some (.tested thread) }

def setFreeList (r : PoolRun) (freeList : Nat) : PoolRun :=
  { r with pool := { r.pool with freeList } }

/-- `freeList_` is read three times in all, and another thread may have reset it before the last. -/
def proceed (s : PoolSections) : Except Fault PoolSections :=
  match s.holder with
  | none => .error .notEnabled
  | some (.tested thread) => .ok { s with holder := some (.read thread s.shared.pool.freeList) }
  | some (.read thread temp) =>
      if s.shared.pool.freeList = 0 then .error .nullPointer
      else
        let next := s.shared.pool.memory s.shared.pool.freeList
        .ok { s with holder := some (.loaded thread temp next) }
  | some (.loaded _ temp next) =>
      let shared := setFreeList s.shared next
      .ok { s with shared := { shared with live := temp :: shared.live }, holder := none }
  | some (.linked _ ptr) => .ok { s with shared := setFreeList s.shared ptr, holder := none }

/-- `ptr->next = freeList_`; no other thread looks at the slot. -/
def deallocate (s : PoolSections) (thread ptr : Nat) : PoolSections :=
  { s with
    shared := { s.shared with
      pool := s.shared.pool.setNext ptr s.shared.pool.freeList
      live := s.shared.live.erase ptr }
    holder := some (.linked thread ptr) }

def step (s : PoolSections) : PoolSectionEvent → Except Fault PoolSections
  | .test thread => if ¬ s.Inside thread then .ok (s.test thread) else .error .notEnabled
  | .lock thread =>
      if thread ∈ s.waiting ∧ s.holder = none then .ok (s.lock thread) else .error .notEnabled
  | .proceed => s.proceed
  | .carve thread newBlock =>
      if thread ∈ s.between ∧
          (s.shared.pool.lastSlot ≤ s.shared.pool.curSlot →
            PoolRun.Placed s.shared.blocks newBlock) then
        .ok { s with
          shared := PoolThreads.carved s.shared newBlock
          between := s.between.erase thread
          handed := (s.shared.pool.carve newBlock).1 :: s.handed }
      else .error .notEnabled
  | .deallocate thread ptr =>
      if ¬ s.Inside thread ∧ s.holder = none ∧ ptr ∈ s.shared.live then
        .ok (s.deallocate thread ptr)
      else .error .notEnabled
  | .store address value =>
      if s.shared.Writable address then
        .ok { s with shared := { s.shared with pool := s.shared.pool.setNext address value } }
      else .error .notEnabled

/-- A thread relies on its test of `freeList_`. -/
def Reading (s : PoolSections) : Prop :=
  match s.holder with
  | some (.tested _) | some (.read _ _) => True
  | some (.loaded _ _ _) | some (.linked _ _) | none => False

instance (s : PoolSections) : Decidable s.Reading :=
  match found : s.holder with
  | some (.tested _) | some (.read _ _) => isTrue (by simp [Reading, found])
  | some (.loaded _ _ _) | some (.linked _ _) | none => isFalse (by simp [Reading, found])

/-- It does so in vain: its read of `freeList_->next` will go through a null pointer. -/
def Doomed (s : PoolSections) : Prop := s.Reading ∧ s.shared.pool.freeList = 0

/-- What the thread that holds the lock will have made of the free list. -/
def settled (s : PoolSections) : PoolRun :=
  match s.holder with
  | some (.loaded _ temp next) =>
      { setFreeList s.shared next with live := temp :: s.shared.live }
  | some (.linked _ ptr) => setFreeList s.shared ptr
  | some (.tested _) | some (.read _ _) | none => s.shared

/-- The account of the slots, once the lock is free again. -/
def Accounted (size : Nat) (lost : List Nat) (s : PoolSections) : Prop :=
  PoolThreads.Accounted size lost ⟨s.settled, s.between, s.handed⟩

/-- What a thread has read of `freeList_` is still there, or the list has been reset. -/
def Reads (s : PoolSections) : Prop :=
  ∀ thread temp, s.holder = some (.read thread temp) →
    s.shared.pool.freeList = temp ∨ s.shared.pool.freeList = 0

end PoolSections

/-- The same slots in another order. -/
theorem PoolThreads.Accounted.perm {size : Nat} {lost : List Nat} {s : PoolThreads}
    (accounted : s.Accounted size lost) {live : List Nat} (perm : s.shared.live.Perm live) :
    PoolThreads.Accounted size lost { s with shared := { s.shared with live } } := by
  obtain ⟨free, layout, handed⟩ := accounted
  have moved : (s.shared.live ++ lost).Perm (live ++ lost) := perm.append_right lost
  exact ⟨free, layout.of_perm (moved.append_right free) layout.chain layout.freed,
    handed.trans (moved.append_right free)⟩

theorem perm_restored (slot : Nat) (held free : List Nat) :
    (slot :: (held ++ free) ++ []).Perm (slot :: held ++ free) := by
  rw [List.append_nil, List.cons_append]

/-- A block is taken, and then the free list is put back. -/
theorem PoolThreads.Accounted.newBlock_kept {size : Nat} {lost : List Nat} {s : PoolThreads}
    (accounted : s.Accounted size lost) (sized : PoolRun.SlotSize size)
    (full : s.shared.pool.lastSlot ≤ s.shared.pool.curSlot) {newBlock : Nat}
    (placed : PoolRun.Placed s.shared.blocks newBlock) (between : List Nat) :
    PoolThreads.Accounted size lost
      ⟨PoolSections.setFreeList (carved s.shared newBlock) s.shared.pool.freeList, between,
        (s.shared.pool.carve newBlock).1 :: s.handed⟩ := by
  obtain ⟨free, layout, handed⟩ := accounted
  have forgotten :
      (s.shared.live ++ lost ++ free).Perm (s.shared.live ++ lost ++ free ++ []) := by
    rw [List.append_nil]
  have none : Chain s.shared.pool.memory 0 [] := rfl
  obtain ⟨grown, room⟩ := (layout.of_perm forgotten layout.chain none).newBlock sized placed
  have result := grown.carve sized room
  have outside : newBlock ∉ free := by
    intro inside
    obtain ⟨-, block, member, behind, before⟩ :=
      layout.within newBlock (List.mem_append_right _ inside)
    have separate := placed.2.2.2 block member
    unfold Apart at separate
    have positive := sized.positive
    omega
  have freed := layout.freed.update outside s.shared.pool.firstBlock
  refine ⟨free, ?_, ?_⟩
  · have back := result.of_perm (perm_restored _ _ free) result.chain freed
    simp only [PoolSections.setFreeList, carved, MemoryPool.carve, full, ↓reduceIte]
    exact back
  · simp only [PoolSections.setFreeList, carved, MemoryPool.carve, full, ↓reduceIte]
    exact handed.cons _

namespace PoolSections

variable {size : Nat} {lost : List Nat} {s next : PoolSections}

theorem start_accounted (memory : Nat → Nat) : Accounted size [] (start size memory) :=
  PoolThreads.start_accounted memory

/-- Where the threads are does not matter while nobody has written. -/
theorem Accounted.of_settled (accounted : s.Accounted size lost)
    (same : next.settled = s.settled) (handed : next.handed = s.handed) :
    next.Accounted size lost := by
  obtain ⟨free, layout, moved⟩ := accounted
  refine ⟨free, ?_, ?_⟩
  · rw [same]
    exact layout
  · rw [same, handed]
    exact moved

/-- The first test moves no slot and nobody's lock. -/
theorem test_eq (s : PoolSections) (thread : Nat) :
    ∃ waiting between, s.test thread = { s with waiting, between } := by
  unfold test
  split
  · exact ⟨_, _, rfl⟩
  · exact ⟨_, _, rfl⟩

/-- The second one takes the lock where it finds a slot. -/
theorem lock_cases (s : PoolSections) (thread : Nat) :
    (∃ waiting between, s.lock thread = { s with waiting, between }) ∨
      s.shared.pool.freeList ≠ 0 ∧
        ∃ waiting, s.lock thread = { s with waiting, holder := some (.tested thread) } := by
  unfold lock
  split
  · exact Or.inl ⟨_, _, rfl⟩
  · rename_i front
    exact Or.inr ⟨front, _, rfl⟩

/-- The thread with the lock reads the front of the list, reads its successor, or has written and
leaves. -/
theorem proceed_cases (taken : s.proceed = .ok next) :
    (∃ thread, s.holder = some (.tested thread) ∧
        next = { s with holder := some (.read thread s.shared.pool.freeList) }) ∨
      (∃ thread temp, s.holder = some (.read thread temp) ∧ s.shared.pool.freeList ≠ 0 ∧
        next = { s with
          holder := some (.loaded thread temp (s.shared.pool.memory s.shared.pool.freeList)) }) ∨
      next.holder = none ∧ next.settled = s.settled ∧ next.handed = s.handed ∧
        next.shared.blocks = s.shared.blocks := by
  unfold proceed at taken
  cases held : s.holder with
  | none =>
      rw [held] at taken
      cases taken
  | some holder =>
      rw [held] at taken
      cases holder with
      | tested thread =>
          cases taken
          exact Or.inl ⟨thread, rfl, rfl⟩
      | read thread temp =>
          dsimp only at taken
          split at taken
          · cases taken
          · rename_i front
            cases taken
            exact Or.inr (Or.inl ⟨thread, temp, rfl, front, rfl⟩)
      | loaded | linked =>
          cases taken
          refine Or.inr (Or.inr ⟨rfl, ?_, rfl, rfl⟩)
          simp only [settled, held, setFreeList]

theorem Accounted.lock (accounted : s.Accounted size lost) (free : s.holder = none) (thread : Nat) :
    (s.lock thread).Accounted size lost := by
  obtain ⟨_, _, same⟩ | ⟨-, _, same⟩ := s.lock_cases thread
  · rw [same]
    exact accounted.of_settled rfl rfl
  · rw [same]
    exact accounted.of_settled (by simp only [settled, free]) rfl

/-- A slot is on its way out of the list as soon as its successor has been read. -/
theorem Accounted.load {thread temp : Nat} (accounted : s.Accounted size lost)
    (held : s.holder = some (.read thread temp)) (front : s.shared.pool.freeList ≠ 0)
    (same : s.shared.pool.freeList = temp) :
    PoolSections.Accounted size lost { s with
      holder := some (.loaded thread temp (s.shared.pool.memory s.shared.pool.freeList)) } := by
  have before : s.settled = s.shared := by simp only [settled, held]
  have popped := PoolThreads.Accounted.popFree accounted thread
  unfold PoolThreads.popFree MemoryPool.popFree at popped
  rw [before] at popped
  simp only [front, ↓reduceIte] at popped
  rw [same] at popped ⊢
  exact popped

theorem Accounted.proceed (accounted : s.Accounted size lost) (reads : s.Reads)
    (taken : s.proceed = .ok next) : next.Accounted size lost ∧ next.Reads := by
  obtain ⟨thread, held, rfl⟩ | ⟨thread, temp, held, front, rfl⟩ | ⟨none, settles, handed, -⟩ :=
    proceed_cases taken
  · refine ⟨accounted.of_settled (by simp only [settled, held]) rfl, fun _ _ same => ?_⟩
    cases same
    exact Or.inl rfl
  · have same := (reads thread temp held).resolve_right front
    exact ⟨accounted.load held front same, fun _ _ same => by cases same⟩
  · refine ⟨accounted.of_settled settles handed, fun _ _ same => ?_⟩
    rw [none] at same
    cases same

/-- The block step while no thread writes to the list. -/
theorem carve_quiet (accounted : s.Accounted size lost) (sized : PoolRun.SlotSize size)
    {newBlock : Nat} (placed : s.shared.pool.lastSlot ≤ s.shared.pool.curSlot →
      PoolRun.Placed s.shared.blocks newBlock) (between : List Nat) (quiet : s.settled = s.shared) :
    ∃ dropped, PoolThreads.Accounted size (lost ++ dropped)
      ⟨PoolThreads.carved s.shared newBlock, between,
        (s.shared.pool.carve newBlock).1 :: s.handed⟩ := by
  unfold Accounted at accounted
  rw [quiet] at accounted
  by_cases full : s.shared.pool.lastSlot ≤ s.shared.pool.curSlot
  · obtain ⟨dropped, -, kept⟩ := accounted.newBlock sized full (placed full) between
    exact ⟨dropped, kept⟩
  · refine ⟨[], ?_⟩
    rw [List.append_nil]
    exact accounted.carve sized (Nat.lt_of_not_le full) newBlock between

/-- The block step while a thread is about to write to the list, which undoes a reset. -/
theorem carve_busy (accounted : s.Accounted size lost) (sized : PoolRun.SlotSize size)
    {newBlock : Nat} (placed : s.shared.pool.lastSlot ≤ s.shared.pool.curSlot →
      PoolRun.Placed s.shared.blocks newBlock) (between : List Nat) (freeList : Nat)
    (live : List Nat) (busy : s.settled = { setFreeList s.shared freeList with live }) :
    PoolThreads.Accounted size lost
      ⟨{ setFreeList (PoolThreads.carved s.shared newBlock) freeList with
          live := (s.shared.pool.carve newBlock).1 :: live }, between,
        (s.shared.pool.carve newBlock).1 :: s.handed⟩ := by
  unfold Accounted at accounted
  rw [busy] at accounted
  by_cases full : s.shared.pool.lastSlot ≤ s.shared.pool.curSlot
  · have kept := accounted.newBlock_kept sized full (placed full) between
    simp only [setFreeList, PoolThreads.carved, MemoryPool.carve, full, ↓reduceIte] at kept ⊢
    exact kept
  · have kept := accounted.carve sized (Nat.lt_of_not_le full) newBlock between
    simp only [setFreeList, PoolThreads.carved, MemoryPool.carve, full, ↓reduceIte] at kept ⊢
    exact kept

theorem Accounted.carve (accounted : s.Accounted size lost) (sized : PoolRun.SlotSize size)
    {newBlock : Nat} (placed : s.shared.pool.lastSlot ≤ s.shared.pool.curSlot →
      PoolRun.Placed s.shared.blocks newBlock) (between : List Nat) :
    ∃ dropped, PoolSections.Accounted size (lost ++ dropped) { s with
      shared := PoolThreads.carved s.shared newBlock
      between
      handed := (s.shared.pool.carve newBlock).1 :: s.handed } := by
  unfold PoolSections.Accounted
  cases held : s.holder with
  | none =>
      simp only [settled]
      exact carve_quiet accounted sized placed between (by simp only [settled, held])
  | some holder =>
      cases holder with
      | tested | read =>
          simp only [settled]
          exact carve_quiet accounted sized placed between (by simp only [settled, held])
      | loaded thread temp tail =>
          simp only [settled]
          refine ⟨[], ?_⟩
          rw [List.append_nil]
          have kept := carve_busy accounted sized placed between tail (temp :: s.shared.live)
            (by simp only [settled, held])
          exact kept.perm (List.Perm.swap ..)
      | linked thread ptr =>
          simp only [settled]
          refine ⟨[], ?_⟩
          rw [List.append_nil]
          exact carve_busy accounted sized placed between ptr s.shared.live
            (by simp only [settled, held, setFreeList])

/-- A slot is in the list as soon as it is linked. -/
theorem Accounted.deallocate (accounted : s.Accounted size lost) (sized : PoolRun.SlotSize size)
    (free : s.holder = none) {ptr : Nat} (alive : ptr ∈ s.shared.live) (thread : Nat) :
    (s.deallocate thread ptr).Accounted size lost := by
  have before : s.settled = s.shared := by simp only [settled, free]
  unfold PoolSections.Accounted at accounted
  rw [before] at accounted
  have nonnull : ptr ≠ 0 := by
    obtain ⟨rest, layout, -⟩ := accounted
    obtain ⟨-, block, -, behind, -⟩ :=
      layout.within ptr (List.mem_append_left _ (List.mem_append_left _ alive))
    omega
  have given : PoolThreads.Accounted size lost ⟨s.shared, [], s.handed⟩ := accounted
  have taken : PoolThreads.step ⟨s.shared, [], s.handed⟩ (.deallocate thread ptr) =
      .ok ⟨{ s.shared with
        pool := s.shared.pool.deallocate ptr
        live := s.shared.live.erase ptr }, [], s.handed⟩ := if_pos ⟨List.not_mem_nil, alive⟩
  obtain ⟨dropped, none, kept⟩ := PoolThreads.step_accounted sized given taken
  rw [none.mpr trivial, List.append_nil] at kept
  simp only [MemoryPool.deallocate, nonnull, ↓reduceIte] at kept
  exact kept

/-- Clients write neither to free slots nor to those on their way. -/
theorem Accounted.store (accounted : s.Accounted size lost) (sized : PoolRun.SlotSize size)
    {address : Nat} (writable : s.shared.Writable address) (value : Nat) :
    PoolSections.Accounted size lost
      { s with shared := { s.shared with pool := s.shared.pool.setNext address value } } := by
  have allowed : s.settled.Writable address := by
    refine ⟨writable.1, ?_⟩
    unfold settled
    split
    · refine writable.2.imp_left fun held => ?_
      obtain ⟨slot, alive, room⟩ := held
      exact ⟨slot, List.mem_cons_of_mem _ alive, room⟩
    · exact writable.2
    · exact writable.2
    · exact writable.2
    · exact writable.2
  have taken : PoolThreads.step ⟨s.settled, s.between, s.handed⟩ (.store address value) =
      .ok ⟨{ s.settled with pool := s.settled.pool.setNext address value }, s.between, s.handed⟩ :=
    if_pos allowed
  obtain ⟨dropped, none, kept⟩ := PoolThreads.step_accounted sized accounted taken
  rw [none.mpr trivial, List.append_nil] at kept
  unfold PoolSections.Accounted
  have same : settled { s with shared := { s.shared with
      pool := s.shared.pool.setNext address value } } =
      { s.settled with pool := s.settled.pool.setNext address value } := by
    unfold settled
    cases s.holder with
    | none => rfl
    | some holder => cases holder <;> rfl
  rw [same]
  exact kept

theorem Reads.carve (reads : s.Reads) (newBlock : Nat) (between handed : List Nat) :
    PoolSections.Reads { s with
      shared := PoolThreads.carved s.shared newBlock
      between
      handed } := by
  intro thread temp held
  have kept := reads thread temp held
  simp only [PoolThreads.carved, MemoryPool.carve]
  split
  · exact Or.inr rfl
  · exact kept

/-- Each step keeps the account. -/
theorem step_accounted (accounted : s.Accounted size lost) (sized : PoolRun.SlotSize size)
    (reads : s.Reads) {event : PoolSectionEvent} (taken : s.step event = .ok next) :
    (∃ dropped, next.Accounted size (lost ++ dropped)) ∧ next.Reads := by
  have whole (kept : next.Accounted size lost) :
      ∃ dropped, next.Accounted size (lost ++ dropped) :=
    ⟨[], by rwa [List.append_nil]⟩
  cases event with
  | test thread =>
      obtain ⟨-, made⟩ := guard_ok taken
      cases made
      obtain ⟨_, _, same⟩ := s.test_eq thread
      refine ⟨whole ?_, ?_⟩
      · rw [same]
        exact accounted.of_settled rfl rfl
      · rw [same]
        exact reads
  | lock thread =>
      obtain ⟨⟨-, free⟩, made⟩ := guard_ok taken
      cases made
      refine ⟨whole (accounted.lock free thread), ?_⟩
      obtain ⟨_, _, same⟩ | ⟨-, _, same⟩ := s.lock_cases thread
      · rw [same]
        exact reads
      · rw [same]
        exact fun _ _ held => by cases held
  | proceed =>
      obtain ⟨kept, later⟩ := accounted.proceed reads taken
      exact ⟨whole kept, later⟩
  | carve thread newBlock =>
      obtain ⟨⟨-, placed⟩, made⟩ := guard_ok taken
      cases made
      exact ⟨accounted.carve sized placed _, reads.carve newBlock _ _⟩
  | deallocate thread ptr =>
      obtain ⟨⟨-, free, alive⟩, made⟩ := guard_ok taken
      cases made
      exact ⟨whole (accounted.deallocate sized free alive thread), fun _ _ held => by cases held⟩
  | store address value =>
      obtain ⟨writable, made⟩ := guard_ok taken
      cases made
      exact ⟨whole (accounted.store sized writable value), reads⟩

/-- A step fails where it is not enabled, or reads through the null pointer of a list that has been
reset since the test. -/
theorem step_fails (s : PoolSections) (event : PoolSectionEvent) :
    Spec (fun fault => fault = Fault.notEnabled ∨ fault = .nullPointer ∧ s.Doomed)
      (fun _ => True) (s.step event) := by
  cases event with
  | proceed =>
      simp only [step, PoolSections.proceed]
      cases held : s.holder with
      | none => exact Or.inl rfl
      | some holder =>
          cases holder with
          | tested | loaded | linked => trivial
          | read thread temp =>
              dsimp only
              split
              · rename_i reset
                refine Or.inr ⟨rfl, ?_, reset⟩
                simp only [Reading, held]
              · trivial
  | test | lock | carve | deallocate | store => exact .guard (fun _ => trivial) (Or.inl rfl)

/-- Only the block step takes a block, and then it resets the list. -/
theorem step_blocks {event : PoolSectionEvent} (taken : s.step event = .ok next) :
    next.shared.blocks = s.shared.blocks ∨
      s.shared.pool.lastSlot ≤ s.shared.pool.curSlot ∧ ∃ thread newBlock,
        event = .carve thread newBlock ∧ next.shared.blocks = newBlock :: s.shared.blocks ∧
          next.holder = s.holder ∧ next.shared.pool.freeList = 0 := by
  cases event with
  | test thread =>
      obtain ⟨-, made⟩ := guard_ok taken
      cases made
      obtain ⟨_, _, same⟩ := s.test_eq thread
      rw [same]
      exact Or.inl rfl
  | lock thread =>
      obtain ⟨-, made⟩ := guard_ok taken
      cases made
      left
      obtain ⟨_, _, same⟩ | ⟨-, _, same⟩ := s.lock_cases thread
      · rw [same]
      · rw [same]
  | proceed =>
      left
      obtain ⟨_, -, rfl⟩ | ⟨_, _, -, -, rfl⟩ | ⟨-, -, -, same⟩ := proceed_cases taken
      · rfl
      · rfl
      · exact same
  | carve thread newBlock =>
      obtain ⟨-, made⟩ := guard_ok taken
      cases made
      by_cases full : s.shared.pool.lastSlot ≤ s.shared.pool.curSlot
      · refine Or.inr ⟨full, thread, newBlock, rfl, ?_, rfl, ?_⟩
        · simp only [PoolThreads.carved, full, ↓reduceIte]
        · simp only [PoolThreads.carved, MemoryPool.carve, full, ↓reduceIte]
          rfl
      · left
        simp only [PoolThreads.carved, full, ↓reduceIte]
  | deallocate thread ptr =>
      obtain ⟨-, made⟩ := guard_ok taken
      cases made
      exact Or.inl rfl
  | store address value =>
      obtain ⟨-, made⟩ := guard_ok taken
      cases made
      exact Or.inl rfl

/-- A thread that relies on its test has just made it, or the list is as it was, unless a new block
has been taken. -/
theorem step_reading {event : PoolSectionEvent} (taken : s.step event = .ok next)
    (reading : next.Reading) :
    next.shared.pool.freeList ≠ 0 ∨
      s.Reading ∧ (next.shared.blocks = s.shared.blocks →
        next.shared.pool.freeList = s.shared.pool.freeList) := by
  cases event with
  | test thread =>
      obtain ⟨-, made⟩ := guard_ok taken
      cases made
      obtain ⟨_, _, same⟩ := s.test_eq thread
      rw [same] at reading ⊢
      exact Or.inr ⟨reading, fun _ => rfl⟩
  | lock thread =>
      obtain ⟨⟨-, free⟩, made⟩ := guard_ok taken
      cases made
      obtain ⟨_, _, same⟩ | ⟨front, _, same⟩ := s.lock_cases thread
      · rw [same] at reading
        simp only [Reading, free] at reading
      · rw [same]
        exact Or.inl front
  | proceed =>
      obtain ⟨_, held, rfl⟩ | ⟨_, _, -, -, rfl⟩ | ⟨none, -⟩ := proceed_cases taken
      · exact Or.inr ⟨by simp only [Reading, held], fun _ => rfl⟩
      · exact reading.elim
      · simp only [Reading, none] at reading
  | carve thread newBlock =>
      obtain ⟨-, made⟩ := guard_ok taken
      cases made
      refine Or.inr ⟨reading, ?_⟩
      simp only [PoolThreads.carved, MemoryPool.carve]
      split
      · exact fun same => absurd same (List.cons_ne_self _ _)
      · exact fun _ => rfl
  | deallocate thread ptr =>
      obtain ⟨-, made⟩ := guard_ok taken
      cases made
      exact reading.elim
  | store address value =>
      obtain ⟨-, made⟩ := guard_ok taken
      cases made
      exact Or.inr ⟨reading, fun _ => rfl⟩

/-- Without a new block no test is outdated. -/
theorem step_not_doomed {event : PoolSectionEvent} (taken : s.step event = .ok next)
    (sound : ¬ s.Doomed) (guarded : s.Reading → next.shared.blocks = s.shared.blocks) :
    ¬ next.Doomed := by
  rintro ⟨reading, reset⟩
  rcases step_reading taken reading with front | ⟨before, same⟩
  · exact front reset
  · exact sound ⟨before, (same (guarded before)).symm.trans reset⟩

/-- A new block outdates the test of a thread that relies on it. -/
theorem step_doomed {event : PoolSectionEvent} (taken : s.step event = .ok next)
    (reading : s.Reading) (grown : next.shared.blocks ≠ s.shared.blocks) : next.Doomed := by
  obtain ⟨-, -, -, -, -, holder, reset⟩ := (step_blocks taken).resolve_left grown
  refine ⟨?_, reset⟩
  unfold Reading at reading ⊢
  rw [holder]
  exact reading

/-- Such a thread goes through the null pointer with its next step or the one after it. -/
theorem Doomed.faults (doomed : s.Doomed) :
    run step s [.proceed, .proceed] = .error .nullPointer := by
  obtain ⟨reading, reset⟩ := doomed
  unfold Reading at reading
  cases held : s.holder with
  | none =>
      rw [held] at reading
      exact reading.elim
  | some holder =>
      cases holder with
      | tested | read => simp only [run, step, PoolSections.proceed, held, reset, ↓reduceIte]
      | loaded | linked =>
          rw [held] at reading
          exact reading.elim

/-- The seven slots of a block are taken, thread 2 finds the list empty, thread 1 frees a slot,
thread 3 finds it, and the new block of thread 2 resets the list before thread 3 has read it. -/
example : (run step (start (8 * 64) fun _ => 0)
    ((List.replicate 7 [.test 1, .carve 1 4096]).flatten ++
      [.test 2, .deallocate 1 4608, .proceed, .test 3, .lock 3, .carve 2 8192, .proceed,
        .proceed])).map (fun s => s.shared.live) = .error .nullPointer := by decide +kernel

end PoolSections

end KamaWebserver
