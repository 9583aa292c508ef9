import KamaWebserver.LfuPut
import KamaWebserver.Library.Transition

set_option autoImplicit false

namespace KamaWebserver.KLfuCache

open Outcome Transition

variable {Key Value : Type} [DecidableEq Key]

/-- What a call does to a consistent cache, by its cases. -/
inductive Stepped (c : KLfuCache Key Value) : CacheOp Key Value → KLfuCache Key Value → Prop
  | missed {key : Key} {order : IterOrder (MapEntry Key)}
      (absent : c.nodeMap.lookup key = none) : Stepped c (.get key order) c
  | read {key : Key} {order : IterOrder (MapEntry Key)} {node : NodePtr} {c' : KLfuCache Key Value}
      (found : c.nodeMap.lookup key = some node) (visited : Visited c node c') :
      Stepped c (.get key order) c'
  | updated {key : Key} {value : Value} {order : IterOrder (MapEntry Key)} {node : NodePtr}
      {c' : KLfuCache Key Value} (found : c.nodeMap.lookup key = some node)
      (visited : Visited (c.setValue node value) node c') : Stepped c (.put key value order) c'
  | stored {key : Key} {value : Value} {order : IterOrder (MapEntry Key)}
      {rest filled accessed : KLfuCache Key Value} (absent : c.nodeMap.lookup key = none)
      (stored : Stored c key value rest filled accessed) :
      Stepped c (.put key value order) { accessed with minFreq := min accessed.minFreq 1 }
  | purged : Stepped c .purge c.purge

/-- The cached node a call reads or overwrites. -/
def target (c : KLfuCache Key Value) : CacheOp Key Value → Option NodePtr
  | .put key _ _ => c.nodeMap.lookup key
  | .get key _ => c.nodeMap.lookup key
  | .purge => none

/-- When the call hits a cached key and the aging pass is due, some cached frequency is
below `INT8_MAX` after it. -/
def KeepsBelowSentinel (c : KLfuCache Key Value) (op : CacheOp Key Value) : Prop :=
  match c.target op with
  | some node => c.AgingFinds node
  | none => True

variable {c c' : KLfuCache Key Value} {op : CacheOp Key Value}

theorem cached_of_lookup {key : Key} {node : NodePtr} (found : c.nodeMap.lookup key = some node) :
    node ∈ c.cached :=
  List.mem_map.mpr ⟨⟨key, node⟩, AList.mem_lookup_iff.mp found, rfl⟩

section Calls

variable {key : Key} {node : NodePtr}

theorem get_found (found : c.nodeMap.lookup key = some node) {order : IterOrder (MapEntry Key)}
    (returned : c.getInternal node order = .ok c') :
    c.get key order = .ok (c', some (c.heap node).value) := by
  simp only [KLfuCache.get, found, returned, Except.map]

theorem get_absent (absent : c.nodeMap.lookup key = none) (order : IterOrder (MapEntry Key)) :
    c.get key order = .ok (c, none) := by
  simp only [KLfuCache.get, absent]

variable [Inhabited Key]

theorem step_get {order : IterOrder (MapEntry Key)} {result : Option Value}
    (returned : c.get key order = .ok (c', result)) : c.step (.get key order) = .ok c' := by
  simp only [KLfuCache.step, returned, Except.map]

theorem put_found (room : c.capacity ≠ 0) (found : c.nodeMap.lookup key = some node)
    (value : Value) (order : IterOrder (MapEntry Key)) :
    c.put key value order = (c.setValue node value).getInternal node order := by
  simp only [KLfuCache.put, room, ↓reduceIte, found]

theorem put_absent (room : c.capacity ≠ 0) (absent : c.nodeMap.lookup key = none)
    (value : Value) (order : IterOrder (MapEntry Key)) :
    c.put key value order = c.putInternal key value order := by
  simp only [KLfuCache.put, room, ↓reduceIte, absent]

end Calls

theorem Consistent.step [Inhabited Key] (consistent : c.Consistent) (room : 1 ≤ c.capacity)
    (op : CacheOp Key Value) : ∃ c', c.step op = .ok c' ∧ Stepped c op c' := by
  cases op with
  | put key value order =>
      have some : c.capacity ≠ 0 := by omega
      cases found : c.nodeMap.lookup key with
      | some node =>
          obtain ⟨c', returned, -, visited⟩ :=
            (consistent.toHolding.setValue node value).getInternal (cached_of_lookup found) order
          exact ⟨c', (put_found some found value order).trans returned, .updated found visited⟩
      | none =>
          obtain ⟨rest, filled, accessed, returned, stored⟩ :=
            consistent.putInternal room (AList.lookup_eq_none.mp found) value order
          exact ⟨_, (put_absent some found value order).trans returned, .stored found stored⟩
  | get key order =>
      cases found : c.nodeMap.lookup key with
      | some node =>
          obtain ⟨c', returned, -, visited⟩ :=
            consistent.toHolding.getInternal (cached_of_lookup found) order
          exact ⟨c', step_get (get_found found returned), .read found visited⟩
      | none => exact ⟨c, step_get (get_absent found order), .missed found⟩
  | purge => exact ⟨c.purge, rfl, .purged⟩

theorem Stepped.consistent (stepped : Stepped c op c') (consistent : c.Consistent)
    (below : c.KeepsBelowSentinel op) :
    c'.Consistent ∧ c'.capacity = c.capacity ∧ c'.maxAverageNum = c.maxAverageNum := by
  cases stepped with
  | missed absent => exact ⟨consistent, rfl, rfl⟩
  | read found visited =>
      simp only [KeepsBelowSentinel, target, found] at below
      exact ⟨visited.consistent consistent (cached_of_lookup found) below, visited.kept.capacity,
        visited.kept.maxAverageNum⟩
  | @updated key value order node _ found visited =>
      simp only [KeepsBelowSentinel, target, found] at below
      have finds := (c.agingFinds_setValue node value).mpr below
      have inside : node ∈ (c.setValue node value).cached := cached_of_lookup found
      exact ⟨visited.consistent (consistent.setValue node value) inside finds,
        visited.kept.capacity, visited.kept.maxAverageNum⟩
  | stored absent stored =>
      obtain ⟨capacity, maxAverageNum, -⟩ := stored.room.kept
      refine ⟨stored.consistent consistent, ?_, ?_⟩
      · exact stored.counted.kept.capacity.trans (stored.inserted.capacity.trans capacity)
      · exact stored.counted.kept.maxAverageNum.trans
          (stored.inserted.maxAverageNum.trans maxAverageNum)
  | purged =>
      exact ⟨consistent_of_empty rfl rfl consistent.positive_minFreq consistent.bound, rfl, rfl⟩

/-- The cache holds at most `capacity` entries, and a `put` of an absent key into a full
one replaces exactly one cached entry by the new one. -/
def Bounded [Inhabited Key] (capacity : Nat) (c : KLfuCache Key Value) : Prop :=
  c.size ≤ capacity ∧
    ∀ key value order, c.nodeMap.lookup key = none → c.size = capacity →
      ∃ victim ∈ c.nodeMap.entries, ∃ node c', c.put key value order = .ok c' ∧
        c'.nodeMap = (c.nodeMap.erase victim.1).insert key node

variable [Inhabited Key]

theorem Consistent.bounded (consistent : c.Consistent) (room : 1 ≤ c.capacity) :
    c.Bounded c.capacity := by
  refine ⟨consistent.fits, fun key value order absent full => ?_⟩
  obtain ⟨c', returned, stepped⟩ := consistent.step room (.put key value order)
  cases stepped with
  | updated found visited =>
      rw [absent] at found
      cases found
  | @stored _ _ _ rest filled accessed absent stored =>
      obtain ⟨less, -⟩ | ⟨-, victim, evicted⟩ := stored.room
      · omega
      · refine ⟨victim, evicted.inside, rest.fresh, _, returned, ?_⟩
        show accessed.nodeMap = _
        rw [stored.counted.kept.nodeMap, stored.inserted.nodeMap, evicted.nodeMap]

/-- While every aging pass leaves some frequency below `INT8_MAX`, the capacity bounds the
cache and a full one evicts one entry at a time. -/
theorem capacity_bounds_while_below_sentinel [Inhabited Value] (capacity maxAverageNum : Nat)
    (room : 1 ≤ capacity) (ops : List (CacheOp Key Value))
    (below : Guarded step KeepsBelowSentinel (create capacity maxAverageNum) ops) :
    Always step (Bounded capacity) (fun _ => False) (create capacity maxAverageNum) ops := by
  refine always_of_guarded (fun c => c.Consistent ∧ c.capacity = capacity) ?_ ?_
    ⟨consistent_of_empty rfl rfl (by decide : 1 ≤ int8Max) (Int.natCast_nonneg _), rfl⟩ below
  · rintro c ⟨consistent, rfl⟩
    exact consistent.bounded room
  · rintro c op ⟨consistent, rfl⟩ below
    obtain ⟨c', taken, stepped⟩ := consistent.step room op
    obtain ⟨consistent', kept, -⟩ := stepped.consistent consistent below
    rw [taken]
    exact ⟨consistent', kept⟩

instance (c : KLfuCache Key Value) (node : NodePtr) : Decidable (c.AgingFinds node) :=
  inferInstanceAs (Decidable (c.AgingDue → ∃ other ∈ c.nodes, c.visitedFreq node other < int8Max))

instance (c : KLfuCache Key Value) (op : CacheOp Key Value) :
    Decidable (c.KeepsBelowSentinel op) :=
  match found : c.target op with
  | some node => decidable_of_iff (c.AgingFinds node) (by simp only [KeepsBelowSentinel, found])
  | none => isTrue (by simp only [KeepsBelowSentinel, found])

/-- Iteration in the order of the entries. -/
def inOrder {α : Type} : IterOrder α := ⟨id, fun _ => List.Perm.refl _⟩

/-- Three entries put into a cache of two. -/
theorem capacity_bounds_three_puts :
    Always step (Bounded 2) (fun _ => False) (create 2 10 : KLfuCache String Nat)
      [.put "a" 1 inOrder, .get "a" inOrder, .put "b" 2 inOrder, .put "c" 3 inOrder] :=
  capacity_bounds_while_below_sentinel 2 10 (by decide) _ (by decide +kernel)

/-- A key read until its frequency is `INT8_MAX`, then another key. -/
def sentinelOps : List (CacheOp String Nat) :=
  .put "a" 1 inOrder :: List.replicate 126 (.get "a" inOrder) ++ [.put "b" 2 inOrder]

/-- The cache of one entry then holds two. -/
theorem sentinel_breaks_capacity :
    ¬ ∀ (capacity maxAverageNum : Nat) (ops : List (CacheOp String Nat)), 1 ≤ capacity →
      Always step (Bounded capacity) (fun _ => False) (create capacity maxAverageNum) ops := by
  intro bounded
  have always := bounded 1 1 sentinelOps (by decide)
  obtain ⟨c, reached, two⟩ := (map_ok_iff _ _ _).mp
    (show (run step (create 1 1 : KLfuCache String Nat) sentinelOps).map size = .ok 2 by
      decide +kernel)
  have bound := (always.target reached).1
  omega

end KamaWebserver.KLfuCache
