import KamaWebserver.MemoryPoolSeparation

set_option autoImplicit false

namespace KamaWebserver

open Linked Outcome Storage Transition

/-- A pool used by several threads. `between` are the threads whose `allocate` found the free
list empty and has not yet taken its slot from a block; `handed` are the slots carved from
blocks and handed out, newest first. -/
structure PoolThreads where
  shared : PoolRun
  between : List Nat
  handed : List Nat

/-- The atomic steps of the threads: both halves of `allocate`, each under its own lock,
`deallocate`, and a client's write to a word of memory. -/
inductive PoolThreadEvent
  | popFree (thread : Nat)
  | carve (thread newBlock : Nat)
  | deallocate (thread ptr : Nat)
  | store (address value : Nat)

namespace PoolThreads

/-- Nothing carved and no thread in a call. -/
def start (size : Nat) (memory : Nat → Nat) : PoolThreads := ⟨.start size memory, [], []⟩

/-- What the block step makes of the pool and its slots. -/
def carved (r : PoolRun) (newBlock : Nat) : PoolRun where
  pool := (r.pool.carve newBlock).2
  live := (r.pool.carve newBlock).1 :: r.live
  blocks := if r.pool.lastSlot ≤ r.pool.curSlot then newBlock :: r.blocks else r.blocks

/-- The free-list step: a slot from the list, or on to the block step. -/
def popFree (s : PoolThreads) (thread : Nat) : PoolThreads :=
  match s.shared.pool.popFree with
  | some (slot, pool) => { s with shared := { s.shared with pool, live := slot :: s.shared.live } }
  | none => { s with between := thread :: s.between }

def step (s : PoolThreads) : PoolThreadEvent → Except Fault PoolThreads
  | .popFree thread => if thread ∉ s.between then .ok (s.popFree thread) else .error .notEnabled
  | .carve thread newBlock =>
      if thread ∈ s.between ∧
          (s.shared.pool.lastSlot ≤ s.shared.pool.curSlot →
            PoolRun.Placed s.shared.blocks newBlock) then
        .ok ⟨carved s.shared newBlock, s.between.erase thread,
          (s.shared.pool.carve newBlock).1 :: s.handed⟩
      else .error .notEnabled
  | .deallocate thread ptr =>
      if thread ∉ s.between ∧ ptr ∈ s.shared.live then
        .ok { s with shared := { s.shared with
          pool := s.shared.pool.deallocate ptr
          live := s.shared.live.erase ptr } }
      else .error .notEnabled
  | .store address value =>
      if s.shared.Writable address then
        .ok { s with shared := { s.shared with pool := s.shared.pool.setNext address value } }
      else .error .notEnabled

/-- Every slot ever handed out is held by a client or reachable from `freeList_`. -/
def NoneLost (s : PoolThreads) : Prop :=
  ∃ free, Chain s.shared.pool.memory s.shared.pool.freeList free ∧
    ∀ slot ∈ s.handed, slot ∈ s.shared.live ∨ slot ∈ free

/-- A new block is taken only while the free list is empty. -/
def Guard (s : PoolThreads) : PoolThreadEvent → Prop
  | .carve _ _ => s.shared.pool.lastSlot ≤ s.shared.pool.curSlot → s.shared.pool.freeList = 0
  | _ => True

/-- The slots handed out are those that clients hold, those that are free, and those in
`lost`; in memory the last lie like slots that are held for ever. -/
def Accounted (size : Nat) (lost : List Nat) (s : PoolThreads) : Prop :=
  ∃ free, PoolRun.Layout size { s.shared with live := s.shared.live ++ lost } free ∧
    s.handed.Perm (s.shared.live ++ lost ++ free)

variable {size : Nat} {lost : List Nat} {s next : PoolThreads}

theorem start_accounted (memory : Nat → Nat) : Accounted size [] (start size memory) :=
  ⟨[], PoolRun.start_layout memory, List.Perm.refl _⟩

theorem Accounted.noneLost_iff (accounted : Accounted size lost s) (positive : 0 < size) :
    s.NoneLost ↔ lost = [] := by
  obtain ⟨free, layout, handed⟩ := accounted
  constructor
  · rintro ⟨reachable, chain, kept⟩
    obtain rfl := layout.freed.unique chain
    have distinct := nodup_of_apart layout.slots positive
    obtain ⟨-, -, apart⟩ := List.nodup_append.mp distinct
    rw [List.eq_nil_iff_forall_not_mem]
    intro slot gone
    have outside := List.nodup_append.mp (List.nodup_append.mp distinct).1
    have given : slot ∈ s.handed := by
      rw [handed.mem_iff]
      simp [gone]
    rcases kept slot given with alive | free
    · exact outside.2.2 slot alive slot gone rfl
    · exact apart slot (List.mem_append_right _ gone) slot free rfl
  · rintro rfl
    refine ⟨free, layout.freed, fun slot given => ?_⟩
    rw [handed.mem_iff] at given
    simpa using given

/-- A free slot is handed out again. -/
theorem Accounted.popFree (accounted : Accounted size lost s) (thread : Nat) :
    Accounted size lost (s.popFree thread) := by
  obtain ⟨free, layout, handed⟩ := accounted
  unfold PoolThreads.popFree MemoryPool.popFree
  by_cases empty : s.shared.pool.freeList = 0
  · simp only [empty, ↓reduceIte]
    exact ⟨free, layout, handed⟩
  · simp only [empty, ↓reduceIte]
    obtain ⟨rest, split, next⟩ := layout.freed.exists_cons empty
    have moved : (s.shared.live ++ lost ++ free).Perm
        (s.shared.pool.freeList :: s.shared.live ++ lost ++ rest) := by
      rw [split]
      exact List.perm_middle
    exact ⟨rest, layout.of_perm moved layout.chain next, handed.trans moved⟩

/-- The block step with room in the current block. -/
theorem Accounted.carve (accounted : Accounted size lost s) (sized : PoolRun.SlotSize size)
    (room : s.shared.pool.curSlot < s.shared.pool.lastSlot) (newBlock : Nat) (between : List Nat) :
    Accounted size lost ⟨carved s.shared newBlock, between,
      (s.shared.pool.carve newBlock).1 :: s.handed⟩ := by
  obtain ⟨free, layout, handed⟩ := accounted
  have full : ¬ s.shared.pool.lastSlot ≤ s.shared.pool.curSlot := by omega
  refine ⟨free, ?_, ?_⟩
  · have result := layout.carve sized room
    simp only [carved, MemoryPool.carve, full, ↓reduceIte]
    exact result
  · simp only [carved, MemoryPool.carve, full, ↓reduceIte]
    exact handed.cons _

/-- The block step with a new block loses what is in the free list. -/
theorem Accounted.newBlock (accounted : Accounted size lost s) (sized : PoolRun.SlotSize size)
    (full : s.shared.pool.lastSlot ≤ s.shared.pool.curSlot) {newBlock : Nat}
    (placed : PoolRun.Placed s.shared.blocks newBlock) (between : List Nat) :
    ∃ dropped, (dropped = [] ↔ s.shared.pool.freeList = 0) ∧
      Accounted size (lost ++ dropped) ⟨carved s.shared newBlock, between,
        (s.shared.pool.carve newBlock).1 :: s.handed⟩ := by
  obtain ⟨free, layout, handed⟩ := accounted
  refine ⟨free, ⟨?_, ?_⟩, [], ?_, ?_⟩
  · rintro rfl
    exact layout.freed
  · intro empty
    have freed : Chain s.shared.pool.memory s.shared.pool.freeList free := layout.freed
    rw [empty] at freed
    exact freed.eq_nil
  · have forgotten :
        (s.shared.live ++ lost ++ free).Perm (s.shared.live ++ (lost ++ free) ++ []) := by
      simp
    have none : Chain s.shared.pool.memory 0 [] := rfl
    have dropped := layout.of_perm forgotten layout.chain none
    obtain ⟨grown, room⟩ := dropped.newBlock sized placed
    have result := grown.carve sized room
    simp only [carved, MemoryPool.carve, full, ↓reduceIte]
    exact result
  · simp only [carved, MemoryPool.carve, full, ↓reduceIte, List.cons_append, List.append_nil]
    rw [← List.append_assoc]
    exact handed.cons _

/-- One step keeps the account, and loses slots exactly when its guard is not met. -/
theorem step_accounted (sized : PoolRun.SlotSize size) (accounted : Accounted size lost s)
    {event : PoolThreadEvent} (taken : s.step event = .ok next) :
    ∃ dropped, (dropped = [] ↔ s.Guard event) ∧ Accounted size (lost ++ dropped) next := by
  cases event with
  | popFree thread =>
      obtain ⟨-, made⟩ := guard_ok taken
      obtain rfl := Except.ok.inj made
      exact ⟨[], by simp [Guard], by simpa using accounted.popFree thread⟩
  | carve thread newBlock =>
      obtain ⟨⟨-, placed⟩, made⟩ := guard_ok taken
      obtain rfl := Except.ok.inj made
      by_cases full : s.shared.pool.lastSlot ≤ s.shared.pool.curSlot
      · obtain ⟨dropped, empty, kept⟩ := accounted.newBlock sized full (placed full)
          (s.between.erase thread)
        exact ⟨dropped, by simp [Guard, full, empty], kept⟩
      · have kept := accounted.carve sized (by omega) newBlock (s.between.erase thread)
        exact ⟨[], by simp [Guard, full], by simpa using kept⟩
  | deallocate thread ptr =>
      obtain ⟨⟨-, alive⟩, made⟩ := guard_ok taken
      obtain rfl := Except.ok.inj made
      obtain ⟨free, layout, handed⟩ := accounted
      have erased : (s.shared.live ++ lost).erase ptr = s.shared.live.erase ptr ++ lost :=
        List.erase_append_left lost alive
      have freed := layout.deallocate sized.positive (List.mem_append_left lost alive)
      refine ⟨[], by simp [Guard], ptr :: free, ?_, ?_⟩
      · dsimp only at freed
        rw [erased] at freed
        simpa using freed
      · rw [List.append_nil, ← erased]
        have moved := (List.perm_cons_erase (List.mem_append_left lost alive)).append_right free
        exact handed.trans (moved.trans List.perm_middle.symm)
  | store address value =>
      obtain ⟨writable, made⟩ := guard_ok taken
      obtain rfl := Except.ok.inj made
      obtain ⟨free, layout, handed⟩ := accounted
      have allowed : { s.shared with live := s.shared.live ++ lost }.Writable address := by
        refine ⟨writable.1, writable.2.imp_left ?_⟩
        rintro ⟨slot, alive, room⟩
        exact ⟨slot, List.mem_append_left lost alive, room⟩
      refine ⟨[], by simp [Guard], free, ?_, by simpa using handed⟩
      simpa using layout.store sized.positive allowed value

/-- Slots of any size of the pools, in every interleaving: none is lost exactly while no thread
takes a new block over a free list with slots in it. -/
theorem noneLost_iff_guarded (i : Nat) (positive : 1 ≤ i) (bound : i ≤ memoryPoolNum)
    (memory : Nat → Nat) (events : List PoolThreadEvent) (s : PoolThreads)
    (reached : run step (start (8 * i) memory) events = .ok s) :
    Always step NoneLost (fun _ => True) (start (8 * i) memory) events ↔
      Guarded step Guard (start (8 * i) memory) events := by
  have sized : PoolRun.SlotSize (8 * i) := .of_index positive bound
  have account : Accounted (8 * i) [] (start (8 * i) memory) := start_accounted memory
  have fresh := account.noneLost_iff sized.positive
  refine always_iff_guarded_of_run (fun s => ∃ lost, Accounted (8 * i) lost s) NoneLost
    ?_ ?_ ⟨[], account⟩ (fresh.mpr rfl) reached
  · rintro s event next ⟨lost, accounted⟩ taken
    obtain ⟨dropped, -, kept⟩ := step_accounted sized accounted taken
    exact ⟨lost ++ dropped, kept⟩
  · rintro s event next ⟨lost, accounted⟩ fine taken
    obtain ⟨dropped, decides, kept⟩ := step_accounted sized accounted taken
    obtain rfl := (accounted.noneLost_iff sized.positive).mp fine
    rw [kept.noneLost_iff sized.positive, List.nil_append, decides]

/-- A slot of 512 bytes that one thread frees and another takes again. -/
theorem noneLost_iff_guarded_reuse :
    ∃ s, run step (start (8 * 64) fun _ => 0)
        [.popFree 1, .carve 1 4096, .deallocate 1 4608, .popFree 2] = .ok s ∧
      (Always step NoneLost (fun _ => True) (start (8 * 64) fun _ => 0)
          [.popFree 1, .carve 1 4096, .deallocate 1 4608, .popFree 2] ↔
        Guarded step Guard (start (8 * 64) fun _ => 0)
          [.popFree 1, .carve 1 4096, .deallocate 1 4608, .popFree 2]) := by
  obtain ⟨s, reached, -⟩ := (map_ok_iff _ _ _).mp
    (show (run step (start (8 * 64) fun _ => 0)
        [.popFree 1, .carve 1 4096, .deallocate 1 4608, .popFree 2]).map
      (fun s => s.shared.live) = .ok [4608] by decide +kernel)
  exact ⟨s, reached, noneLost_iff_guarded 64 (by decide) (by decide) _ _ s reached⟩

/-- The seven slots of a block are taken, thread 1 finds the free list empty, thread 2 frees a
slot, and the new block of thread 1 drops it. -/
def overtakenRun : List PoolThreadEvent :=
  (List.replicate 7 [.popFree 1, .carve 1 4096]).flatten ++
    [.popFree 1, .deallocate 2 4608, .carve 1 8192]

theorem overtakenRun_loses :
    ¬ Always step NoneLost (fun _ => True) (start (8 * 64) fun _ => 0) overtakenRun := by
  intro always
  obtain ⟨s, reached, seen⟩ := (map_ok_iff _ _ _).mp
    (show (run step (start (8 * 64) fun _ => 0) overtakenRun).map
      (fun s => (decide (4608 ∈ s.handed), decide (4608 ∈ s.shared.live), s.shared.pool.freeList)) =
        .ok (true, false, 0) by decide +kernel)
  obtain ⟨given, rest⟩ := Prod.mk.inj seen
  obtain ⟨gone, empty⟩ := Prod.mk.inj rest
  obtain ⟨free, chain, kept⟩ := always.target reached
  rw [empty] at chain
  rcases kept 4608 (of_decide_eq_true given) with alive | free'
  · exact absurd alive (of_decide_eq_false gone)
  · rw [chain.eq_nil] at free'
    cases free'

/-- When no other thread comes between, both steps of `allocate` are the one of a pool that a
single thread uses. -/
theorem allocate_uninterrupted {after : PoolRun} {newBlock : Nat} (thread : Nat)
    (idle : thread ∉ s.between) (taken : s.shared.step (.allocate newBlock) = .ok after) :
    ∃ events next, run step s events = .ok next ∧ next.shared = after ∧
      next.between = s.between := by
  obtain ⟨placed, made⟩ := guard_ok taken
  obtain rfl := Except.ok.inj made
  by_cases empty : s.shared.pool.freeList = 0
  · have popped : s.shared.pool.popFree = none := by
      simp only [MemoryPool.popFree, empty, ↓reduceIte]
    have needs : PoolRun.NeedsBlock s.shared.pool ↔
        s.shared.pool.lastSlot ≤ s.shared.pool.curSlot := by
      simp only [PoolRun.NeedsBlock, empty, true_and]
    rw [needs] at placed
    refine ⟨[.popFree thread, .carve thread newBlock], ⟨carved s.shared newBlock, s.between,
      (s.shared.pool.carve newBlock).1 :: s.handed⟩, ?_, ?_, rfl⟩
    · simp only [run, step, idle, not_false_eq_true, ↓reduceIte, PoolThreads.popFree, popped,
        List.mem_cons_self, true_and, List.erase_cons_head, if_pos placed]
    · simp only [carved, PoolRun.allocate, MemoryPool.allocate, popped, needs]
  · have popped : s.shared.pool.popFree = some (s.shared.pool.freeList,
        { s.shared.pool with freeList := s.shared.pool.memory s.shared.pool.freeList }) := by
      simp only [MemoryPool.popFree, empty, ↓reduceIte]
    have enough : ¬ PoolRun.NeedsBlock s.shared.pool := fun needs => empty needs.1
    refine ⟨[.popFree thread], s.popFree thread, ?_, ?_, ?_⟩
    · simp [run, step, idle]
    · simp only [PoolThreads.popFree, popped, PoolRun.allocate, MemoryPool.allocate, enough,
        ↓reduceIte]
    · simp only [PoolThreads.popFree, popped]

end PoolThreads

end KamaWebserver
