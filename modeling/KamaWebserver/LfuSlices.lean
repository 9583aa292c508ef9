import KamaWebserver.LfuEviction

set_option autoImplicit false

namespace KamaWebserver

open Outcome Transition

/-- What the `int` parameter of a cache makes of a `size_t`, as the size that `put` compares
with. -/
def narrowed (size : Nat) : Nat := (((size : Int).bmod (2 ^ 32)) % sizeModulus).toNat

/-- A size that does not come out negative loses multiples of 2^32 only. -/
theorem narrowed_le {size : Nat} (nonnegative : 0 ≤ (size : Int).bmod (2 ^ 32)) :
    narrowed size ≤ size := by
  have kept : (size : Int).bmod (2 ^ 32) ≤ size := by
    rw [Int.bmod_def] at nonnegative ⊢
    split <;> omega
  have wrapped : (size : Int).bmod (2 ^ 32) % sizeModulus ≤ (size : Int).bmod (2 ^ 32) := by
    unfold sizeModulus
    omega
  unfold narrowed
  omega

/-- The capacity of each slice: the quotient rounded up, which the double gives exactly for
capacities below 2^53. -/
def sliceSize (capacity sliceNum : Nat) : Nat := (capacity + sliceNum - 1) / sliceNum

structure KHashLfuCache (Key Value : Type) where
  capacity : Nat
  sliceNum : Nat
  lfuSliceCaches : List (KLfuCache Key Value)

namespace KHashLfuCache

variable {Key Value : Type} [DecidableEq Key] [Inhabited Key]

/-- `concurrency` is what `std::thread::hardware_concurrency` returns. -/
def create [Inhabited Value] (capacity : Nat) (sliceNum : Int) (maxAverageNum : Int)
    (concurrency : Nat) : KHashLfuCache Key Value :=
  let sliceNum := if 0 < sliceNum then sliceNum.toNat else concurrency
  { capacity
    sliceNum
    lfuSliceCaches := List.replicate sliceNum
      (.create (narrowed (sliceSize capacity sliceNum)) maxAverageNum) }

/-- A call on the slice at the index. -/
def onSlice {β : Type} (h : KHashLfuCache Key Value) (index : Nat)
    (call : KLfuCache Key Value → Except Fault (KLfuCache Key Value × β)) :
    Except Fault (KHashLfuCache Key Value × β) :=
  match h.lfuSliceCaches[index]? with
  | none => .error .outOfBounds
  | some slice => do
      let (slice, result) ← call slice
      return ({ h with lfuSliceCaches := h.lfuSliceCaches.set index slice }, result)

def put (hash : Key → Nat) (h : KHashLfuCache Key Value) (key : Key) (value : Value)
    (order : IterOrder (MapEntry Key)) : Except Fault (KHashLfuCache Key Value) := do
  let (h, _) ← h.onSlice (hash key % h.sliceNum) fun slice =>
    (slice.put key value order).map (·, ())
  return h

def get (hash : Key → Nat) (h : KHashLfuCache Key Value) (key : Key)
    (order : IterOrder (MapEntry Key)) : Except Fault (KHashLfuCache Key Value × Option Value) :=
  h.onSlice (hash key % h.sliceNum) fun slice => slice.get key order

def purge (h : KHashLfuCache Key Value) : KHashLfuCache Key Value :=
  { h with lfuSliceCaches := h.lfuSliceCaches.map KLfuCache.purge }

def step (hash : Key → Nat) (h : KHashLfuCache Key Value) :
    CacheOp Key Value → Except Fault (KHashLfuCache Key Value)
  | .put key value order => h.put hash key value order
  | .get key order => (h.get hash key order).map (·.1)
  | .purge => .ok h.purge

/-- The number of entries over all slices. -/
def size (h : KHashLfuCache Key Value) : Nat := (h.lfuSliceCaches.map KLfuCache.size).sum

end KHashLfuCache

namespace KLfuCache

variable {Key Value : Type}

/-- A slice with the default bound on the average keeps within its capacity. -/
def WithinSlice (capacity : Nat) (c : KLfuCache Key Value) : Prop :=
  c.capacity = capacity ∧ c.maxAverageNum = 10 ∧
    (capacity = 0 → c.nodeMap = ∅) ∧ (capacity ≠ 0 → c.Consistent ∧ c.Moderate)

variable {c : KLfuCache Key Value} {capacity : Nat}

theorem WithinSlice.size_le (within : c.WithinSlice capacity) : c.size ≤ capacity := by
  obtain ⟨same, -, unused, used⟩ := within
  by_cases closed : capacity = 0
  · simp [size, unused closed]
  · rw [← same]
    exact (used closed).1.fits

theorem create_withinSlice [DecidableEq Key] [Inhabited Key] [Inhabited Value] (capacity : Nat) :
    (create capacity 10 : KLfuCache Key Value).WithinSlice capacity := by
  refine ⟨rfl, rfl, fun _ => rfl, fun _ => ⟨?_, ?_⟩⟩
  · exact consistent_of_empty rfl rfl (by decide : 1 ≤ int8Max) (by decide : (0 : Int) ≤ 10)
  · exact ⟨Int.le_refl 0, fun present => absurd rfl present⟩

/-- Every call of a slice succeeds and keeps it within its capacity. -/
theorem WithinSlice.step [DecidableEq Key] [Inhabited Key] (within : c.WithinSlice capacity)
    (op : CacheOp Key Value) : ∃ c', c.step op = .ok c' ∧ c'.WithinSlice capacity := by
  obtain ⟨rfl, bound, unused, used⟩ := within
  by_cases closed : c.capacity = 0
  · have empty := unused closed
    cases op with
    | put key value order =>
        exact ⟨c, if_pos closed, rfl, bound, unused, used⟩
    | get key order =>
        refine ⟨c, ?_, rfl, bound, unused, used⟩
        simp [KLfuCache.step, KLfuCache.get, empty, Except.map]
    | purge =>
        exact ⟨c.purge, rfl, rfl, bound, fun _ => rfl, fun opened => absurd closed opened⟩
  · obtain ⟨consistent, moderate⟩ := used closed
    obtain ⟨c', taken, stepped⟩ := consistent.step (by omega) op
    obtain ⟨below, moderate'⟩ :=
      stepped.moderate consistent moderate (by omega) (by omega)
    obtain ⟨consistent', capacity, kept⟩ := stepped.consistent consistent below
    exact ⟨c', taken, capacity, kept.trans bound, fun none => absurd none closed,
      fun _ => ⟨consistent', moderate'⟩⟩

end KLfuCache

namespace KHashLfuCache

variable {Key Value : Type} [DecidableEq Key] [Inhabited Key]

/-- As many slices as `sliceNum`, each within the capacity given. -/
structure Sliced (count capacity : Nat) (h : KHashLfuCache Key Value) : Prop where
  sliceNum : h.sliceNum = count
  length : h.lfuSliceCaches.length = count
  within : ∀ slice ∈ h.lfuSliceCaches, slice.WithinSlice capacity

variable {h : KHashLfuCache Key Value} {count capacity : Nat}

omit [DecidableEq Key] [Inhabited Key] in
theorem Sliced.size_le (sliced : Sliced count capacity h) : h.size ≤ count * capacity := by
  rw [← sliced.length]
  have bound : ∀ size ∈ h.lfuSliceCaches.map KLfuCache.size, size ≤ capacity := by
    intro size inside
    obtain ⟨slice, member, rfl⟩ := List.mem_map.mp inside
    exact (sliced.within slice member).size_le
  simpa [size] using List.sum_le_card_nsmul _ capacity bound

omit [DecidableEq Key] [Inhabited Key] in
/-- A call that a slice survives is one that the cache survives. -/
theorem Sliced.onSlice {β : Type} (sliced : Sliced count capacity h) {index : Nat}
    (inside : index < count)
    (call : KLfuCache Key Value → Except Fault (KLfuCache Key Value × β))
    (survives : ∀ slice, slice.WithinSlice capacity →
      ∃ slice' result, call slice = .ok (slice', result) ∧ slice'.WithinSlice capacity) :
    ∃ h' result, h.onSlice index call = .ok (h', result) ∧ Sliced count capacity h' := by
  have there : index < h.lfuSliceCaches.length := sliced.length ▸ inside
  obtain ⟨slice', result, called, within⟩ :=
    survives _ (sliced.within _ (List.getElem_mem there))
  refine ⟨{ h with lfuSliceCaches := h.lfuSliceCaches.set index slice' }, result, ?_,
    sliced.sliceNum, ?_, fun slice member => ?_⟩
  · simp only [KHashLfuCache.onSlice, List.getElem?_eq_getElem there, called]
    rfl
  · rw [List.length_set]
    exact sliced.length
  · rcases List.mem_or_eq_of_mem_set member with old | rfl
    · exact sliced.within slice old
    · exact within

theorem Sliced.step (sliced : Sliced count capacity h) (positive : 0 < count)
    (hash : Key → Nat) (op : CacheOp Key Value) :
    ∃ h', h.step hash op = .ok h' ∧ Sliced count capacity h' := by
  have inside : ∀ key, hash key % h.sliceNum < count := by
    intro key
    rw [sliced.sliceNum]
    exact Nat.mod_lt _ positive
  cases op with
  | put key value order =>
      obtain ⟨h', result, called, kept⟩ := sliced.onSlice (inside key)
        (fun slice => (slice.put key value order).map (·, ())) fun slice within => by
          obtain ⟨slice', taken, within'⟩ := within.step (.put key value order)
          exact ⟨slice', (), (map_ok_iff _ _ _).mpr ⟨slice', taken, rfl⟩, within'⟩
      refine ⟨h', ?_, kept⟩
      simp only [KHashLfuCache.step, KHashLfuCache.put, called]
      rfl
  | get key order =>
      obtain ⟨h', result, called, kept⟩ := sliced.onSlice (inside key)
        (fun slice => slice.get key order) fun slice within => by
          obtain ⟨slice', taken, within'⟩ := within.step (.get key order)
          obtain ⟨⟨_, result⟩, got, rfl⟩ := (map_ok_iff _ _ _).mp taken
          exact ⟨_, result, got, within'⟩
      exact ⟨h', (map_ok_iff _ _ _).mpr ⟨_, called, rfl⟩, kept⟩
  | purge =>
      refine ⟨h.purge, rfl, sliced.sliceNum, ?_, fun slice member => ?_⟩
      · rw [purge, List.length_map]
        exact sliced.length
      · obtain ⟨before, older, rfl⟩ := List.mem_map.mp member
        obtain ⟨after, purged, within⟩ := (sliced.within before older).step .purge
        cases purged
        exact within

/-- Arguments of the constructor for which the double is exact and the `int` of a slice not
negative: a negative one is compared with the size of the table as a `size_t`. -/
structure Exact (capacity : Nat) (sliceNum : Int) : Prop where
  positive : 1 ≤ sliceNum
  quotient : capacity < 2 ^ 53
  nonnegative : 0 ≤ (sliceSize capacity sliceNum.toNat : Int).bmod (2 ^ 32)

/-- The slices together hold at most their number times the rounded quotient, which is less than
one entry per slice above the capacity, and the capacity itself when the division has no
remainder. -/
structure Held (capacity sliceNum : Nat) (h : KHashLfuCache Key Value) : Prop where
  slices : h.size ≤ sliceNum * sliceSize capacity sliceNum
  excess : h.size < capacity + sliceNum
  divided : sliceNum ∣ capacity → h.size ≤ capacity

omit [DecidableEq Key] [Inhabited Key] in
theorem Sliced.held {share : Nat} (sliced : Sliced count share h)
    (shared : share ≤ sliceSize capacity count) (positive : 0 < count) :
    Held capacity count h := by
  have bound : h.size ≤ count * sliceSize capacity count :=
    sliced.size_le.trans (Nat.mul_le_mul_left count shared)
  have rounded : count * sliceSize capacity count ≤ capacity + count - 1 :=
    Nat.mul_div_le _ _
  refine ⟨bound, by omega, ?_⟩
  rintro ⟨quotient, rfl⟩
  have whole : sliceSize (count * quotient) count = quotient := by
    unfold sliceSize
    rw [Nat.add_sub_assoc positive, Nat.mul_add_div positive, Nat.div_eq_of_lt (by omega)]
    rfl
  rwa [whole] at bound

/-- In every run of the cache with the default bound on the average, whatever the hash
function, the number of entries is bounded by the rounded share of each slice. -/
theorem entries_held [Inhabited Value] {capacity : Nat} {sliceNum : Int}
    (exact : Exact capacity sliceNum) (concurrency : Nat) (hash : Key → Nat)
    (ops : List (CacheOp Key Value)) :
    Always (step hash) (Held capacity sliceNum.toNat) (fun _ => False)
      (create capacity sliceNum 10 concurrency) ops := by
  obtain ⟨positive, -, nonnegative⟩ := exact
  have given : 0 < sliceNum := by omega
  have slices : 0 < sliceNum.toNat := by omega
  refine always_of_guarded
    (Sliced sliceNum.toNat (narrowed (sliceSize capacity sliceNum.toNat))) ?_ ?_
    ⟨?_, ?_, ?_⟩ (guarded_true _ ops)
  · exact fun h sliced => sliced.held (narrowed_le nonnegative) slices
  · intro h op sliced _
    obtain ⟨h', taken, kept⟩ := sliced.step slices hash op
    rw [taken]
    exact kept
  · simp [create, given]
  · simp [create, given]
  · intro slice member
    simp only [create, given, ↓reduceIte] at member
    obtain rfl := List.eq_of_mem_replicate member
    exact KLfuCache.create_withinSlice _

/-- Ten entries shared out among three slices. -/
theorem entries_held_threeSlices :
    Always (step id) (Held 10 3) (fun _ => False) (create 10 3 10 8 : KHashLfuCache Nat Nat)
      [.put 0 1 KLfuCache.inOrder, .put 3 2 KLfuCache.inOrder, .get 0 KLfuCache.inOrder] :=
  entries_held (⟨by decide, by decide, by decide⟩ : Exact 10 3) 8 id _

/-- Two slices share one entry, and each holds one. -/
theorem sharedEntry_exceeds :
    ¬ Always (step id) (fun h => h.size ≤ 1) (fun _ => False)
      (create 1 2 10 8 : KHashLfuCache Nat Nat)
      [.put 0 1 KLfuCache.inOrder, .put 1 2 KLfuCache.inOrder] := by
  intro always
  obtain ⟨h, reached, two⟩ := (map_ok_iff _ _ _).mp
    (show (run (step id) (create 1 2 10 8 : KHashLfuCache Nat Nat)
      [.put 0 1 KLfuCache.inOrder, .put 1 2 KLfuCache.inOrder]).map size = .ok 2 by
        decide +kernel)
  have bound := always.target reached
  omega

end KHashLfuCache

end KamaWebserver
