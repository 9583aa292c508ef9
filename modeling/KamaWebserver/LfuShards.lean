import KamaWebserver.LfuLookup
import KamaWebserver.LfuSlices

set_option autoImplicit false

namespace KamaWebserver

open Outcome Transition

namespace KLfuCache

variable {Key Value : Type} [DecidableEq Key]

/-- What is recorded for a key depends on what was recorded for it. -/
theorem recorded_congr {written other : Key → Option Value} {key : Key}
    (same : written key = other key) (op : CacheOp Key Value) :
    recorded written op key = recorded other op key := by
  cases op with
  | put at_ value order =>
      by_cases here : key = at_
      · subst here
        simp [recorded]
      · simp [recorded, Function.update_of_ne here, same]
  | get at_ order => exact same
  | purge => rfl

end KLfuCache

namespace KHashLfuCache

variable {Key Value : Type}

/-- The slice at the index takes part in the call. -/
def reaches (hash : Key → Nat) (count index : Nat) : CacheOp Key Value → Bool
  | .put key _ _ => hash key % count = index
  | .get key _ => hash key % count = index
  | .purge => true

variable [DecidableEq Key]

open KLfuCache (recorded lastPut)

/-- A call that does not reach the slice of a key leaves what was last put for it. -/
theorem recorded_of_not_reaches {hash : Key → Nat} {count : Nat} {key : Key}
    {op : CacheOp Key Value} (elsewhere : reaches hash count (hash key % count) op = false)
    (written : Key → Option Value) : recorded written op key = written key := by
  cases op with
  | put other value order =>
      have different : key ≠ other := by
        intro same
        simp [reaches, same] at elsewhere
      exact Function.update_of_ne different _ _
  | get other order => rfl
  | purge => cases elsewhere

/-- The calls that reach the slice of a key say all about the value last put for it. -/
theorem lastPut_filter (hash : Key → Nat) (count : Nat) (key : Key)
    (ops : List (CacheOp Key Value)) :
    lastPut (ops.filter (reaches hash count (hash key % count))) key = lastPut ops key := by
  induction ops using List.reverseRecOn with
  | nil => rfl
  | append_singleton ops op ih =>
      unfold lastPut at ih ⊢
      rw [List.filter_append, List.foldl_append, List.foldl_append]
      cases reached : reaches hash count (hash key % count) op with
      | true =>
          simp only [List.filter_cons, reached, ↓reduceIte, List.filter_nil, List.foldl_cons,
            List.foldl_nil]
          exact KLfuCache.recorded_congr ih op
      | false =>
          simp only [List.filter_cons, reached, Bool.false_eq_true, ↓reduceIte, List.filter_nil,
            List.foldl_cons, List.foldl_nil]
          rw [recorded_of_not_reaches reached, ih]

variable [Inhabited Key]

/-- Each slice is what the calls that reach it make of a cache of its own. -/
structure Shards (hash : Key → Nat) (count : Nat) (start : KLfuCache Key Value)
    (ops : List (CacheOp Key Value)) (h : KHashLfuCache Key Value) : Prop where
  sliceNum : h.sliceNum = count
  length : h.lfuSliceCaches.length = count
  slices : ∀ index < count, ∃ slice, h.lfuSliceCaches[index]? = some slice ∧
    run KLfuCache.step start (ops.filter (reaches hash count index)) = .ok slice

variable {hash : Key → Nat} {count : Nat} {start : KLfuCache Key Value}
  {ops : List (CacheOp Key Value)} {op : CacheOp Key Value} {h : KHashLfuCache Key Value}

/-- A call on one slice. -/
theorem Shards.onSlice {β : Type} (shards : Shards hash count start ops h) {key : Key}
    (positive : 0 < count)
    (alone : ∀ index, reaches hash count index op = decide (hash key % count = index))
    (call : KLfuCache Key Value → Except Fault (KLfuCache Key Value × β))
    (called : ∀ slice, (call slice).map Prod.fst = slice.step op)
    (total : ∀ slice, h.lfuSliceCaches[hash key % count]? = some slice →
      ∃ slice', slice.step op = .ok slice') :
    ∃ h' slice slice' result, h.lfuSliceCaches[hash key % count]? = some slice ∧
      call slice = .ok (slice', result) ∧
      h.onSlice (hash key % h.sliceNum) call = .ok (h', result) ∧
      Shards hash count start (ops ++ [op]) h' := by
  have inside : hash key % count < count := Nat.mod_lt _ positive
  obtain ⟨slice, there, reached⟩ := shards.slices _ inside
  obtain ⟨slice', taken⟩ := total slice there
  have ran := (called slice).trans taken
  obtain ⟨⟨after, result⟩, returned, rfl⟩ := (map_ok_iff _ _ _).mp ran
  refine ⟨{ h with lfuSliceCaches := h.lfuSliceCaches.set (hash key % count) after }, slice, after,
    result, there, returned, ?_, shards.sliceNum, ?_, fun index bound => ?_⟩
  · have here : hash key % h.sliceNum = hash key % count := by rw [shards.sliceNum]
    rw [here]
    simp only [KHashLfuCache.onSlice, there, returned]
    rfl
  · rw [List.length_set]
    exact shards.length
  · rw [List.filter_append, run_append]
    by_cases here : hash key % count = index
    · subst here
      refine ⟨after, ?_, ?_⟩
      · exact List.getElem?_set_self (shards.length ▸ inside)
      · rw [reached]
        simp only [List.filter_cons, alone, decide_true, ↓reduceIte, List.filter_nil]
        exact (run_cons_ok_iff _ _ _ _).mpr ⟨after, taken, rfl⟩
    · obtain ⟨other, found, before⟩ := shards.slices index bound
      refine ⟨other, ?_, ?_⟩
      · rw [← found]
        exact List.getElem?_set_ne here
      · rw [before]
        simp only [List.filter_cons, alone, here, decide_false, Bool.false_eq_true, ↓reduceIte,
          List.filter_nil]
        rfl

section Runs

variable [Inhabited Value] {capacity : Nat} {maxAverageNum : Int}

/-- Every slice has come through the calls so far and comes through more. -/
theorem Shards.answering (shards : Shards hash count (.create capacity maxAverageNum) ops h)
    {index : Nat} {slice : KLfuCache Key Value} (there : h.lfuSliceCaches[index]? = some slice) :
    ∃ members, slice.Answering (lastPut (ops.filter (reaches hash count index))) members := by
  have bound : index < count := by
    rw [← shards.length]
    exact (List.getElem?_eq_some_iff.mp there).1
  obtain ⟨same, found, reached⟩ := shards.slices index bound
  cases there.symm.trans found
  obtain ⟨members, first⟩ : ∃ members, (KLfuCache.create capacity maxAverageNum :
      KLfuCache Key Value).Answering (fun _ => none) members :=
    KLfuCache.create_answering capacity maxAverageNum
  obtain ⟨after, members', ends, answering, -⟩ :=
    first.run (ops.filter (reaches hash count index))
  cases reached.symm.trans ends
  exact ⟨members', answering⟩

theorem Shards.total (shards : Shards hash count (.create capacity maxAverageNum) ops h)
    {index : Nat} {slice : KLfuCache Key Value} (there : h.lfuSliceCaches[index]? = some slice)
    (op : CacheOp Key Value) : ∃ slice', slice.step op = .ok slice' := by
  obtain ⟨members, answering⟩ := shards.answering there
  obtain ⟨slice', members', taken, -⟩ := answering.step op
  exact ⟨slice', taken⟩

/-- `purge` reaches every slice. -/
theorem Shards.purge (shards : Shards hash count (.create capacity maxAverageNum) ops h) :
    Shards hash count (.create capacity maxAverageNum) (ops ++ [.purge]) h.purge := by
  refine ⟨shards.sliceNum, ?_, fun index bound => ?_⟩
  · rw [KHashLfuCache.purge, List.length_map]
    exact shards.length
  · obtain ⟨slice, there, reached⟩ := shards.slices index bound
    refine ⟨slice.purge, ?_, ?_⟩
    · rw [KHashLfuCache.purge, List.getElem?_map, there]
      rfl
    · rw [List.filter_append, run_append, reached]
      rfl

/-- A lookup is one of the slice of its key. -/
theorem Shards.get (shards : Shards hash count (.create capacity maxAverageNum) ops h)
    (positive : 0 < count) (key : Key) (order : IterOrder (MapEntry Key)) :
    ∃ h' slice slice' result, h.lfuSliceCaches[hash key % count]? = some slice ∧
      slice.get key order = .ok (slice', result) ∧ h.get hash key order = .ok (h', result) ∧
      Shards hash count (.create capacity maxAverageNum) (ops ++ [.get key order]) h' :=
  shards.onSlice positive (fun _ => rfl) (fun slice => slice.get key order) (fun _ => rfl)
    fun _ there => shards.total there _

/-- Every call succeeds. -/
theorem Shards.step (shards : Shards hash count (.create capacity maxAverageNum) ops h)
    (positive : 0 < count) (op : CacheOp Key Value) :
    ∃ h', h.step hash op = .ok h' ∧
      Shards hash count (.create capacity maxAverageNum) (ops ++ [op]) h' := by
  cases op with
  | put key value order =>
      have called : ∀ slice : KLfuCache Key Value,
          ((slice.put key value order).map (·, ())).map Prod.fst =
            slice.step (.put key value order) := by
        intro slice
        rw [KLfuCache.step]
        cases slice.put key value order with
        | ok slice' => rfl
        | error fault => rfl
      obtain ⟨h', slice, slice', result, -, -, returned, kept⟩ := shards.onSlice positive
        (fun _ => rfl) (fun slice => (slice.put key value order).map (·, ())) called
        fun _ there => shards.total there _
      refine ⟨h', ?_, kept⟩
      rw [KHashLfuCache.step, KHashLfuCache.put, returned]
      rfl
  | get key order =>
      obtain ⟨h', slice, slice', result, -, -, returned, kept⟩ := shards.get positive key order
      exact ⟨h', (map_ok_iff _ _ _).mpr ⟨_, returned, rfl⟩, kept⟩
  | purge => exact ⟨h.purge, rfl, shards.purge⟩

/-- The number of slices, for the constructor's argument and the number of processors. -/
def sliceCount (sliceNum : Int) (concurrency : Nat) : Nat :=
  if 0 < sliceNum then sliceNum.toNat else concurrency

theorem create_shards (capacity : Nat) (sliceNum maxAverageNum : Int) (concurrency : Nat)
    (hash : Key → Nat) :
    let count := sliceCount sliceNum concurrency
    Shards hash count (.create (narrowed (sliceSize capacity count)) maxAverageNum) []
      (create capacity sliceNum maxAverageNum concurrency : KHashLfuCache Key Value) := by
  refine ⟨rfl, ?_, fun index bound => ⟨_, ?_, rfl⟩⟩
  · simp [create, sliceCount]
  · exact List.getElem?_replicate_of_lt bound

/-- A sharded cache is as many caches as it has slices, each given the calls for its keys and every
`purge`; its lookups return what those of the slices do, which is nothing but the value last
put. -/
theorem slices_alone (capacity : Nat) (sliceNum maxAverageNum : Int) (concurrency : Nat)
    (sliced : 0 < sliceCount sliceNum concurrency) (hash : Key → Nat)
    (ops : List (CacheOp Key Value)) :
    let count := sliceCount sliceNum concurrency
    ∃ h, run (step hash) (create capacity sliceNum maxAverageNum concurrency) ops = .ok h ∧
      Shards hash count (.create (narrowed (sliceSize capacity count)) maxAverageNum) ops h ∧
      ∀ key order, ∃ h' slice slice' result,
        h.lfuSliceCaches[hash key % count]? = some slice ∧
        slice.get key order = .ok (slice', result) ∧ h.get hash key order = .ok (h', result) ∧
        ∀ value, result = some value → lastPut ops key = some value := by
  intro count
  obtain ⟨h, reached, shards⟩ : ∃ h,
      run (KHashLfuCache.step hash) (create capacity sliceNum maxAverageNum concurrency) ops =
        .ok h ∧
      Shards hash count (.create (narrowed (sliceSize capacity count)) maxAverageNum) ops h := by
    induction ops using List.reverseRecOn with
    | nil => exact ⟨_, rfl, create_shards capacity sliceNum maxAverageNum concurrency hash⟩
    | append_singleton ops op ih =>
        obtain ⟨h, reached, shards⟩ := ih
        obtain ⟨h', taken, kept⟩ := shards.step sliced op
        refine ⟨h', ?_, kept⟩
        rw [run_append, reached]
        exact (run_cons_ok_iff _ _ _ _).mpr ⟨h', taken, rfl⟩
  refine ⟨h, reached, shards, fun key order => ?_⟩
  obtain ⟨h', slice, slice', result, there, alone, returned, -⟩ := shards.get sliced key order
  refine ⟨h', slice, slice', result, there, alone, returned, fun value found => ?_⟩
  obtain ⟨members, answering⟩ := shards.answering there
  obtain ⟨other, answer, called, seen, -⟩ := answering.answers.get key order
  cases alone.symm.trans called
  rw [← lastPut_filter hash count key ops]
  exact seen value found

end Runs

/-- The keys 2 and 4 share a slice. -/
def sharedOut : List (CacheOp Nat Nat) :=
  [.put 2 1 KLfuCache.inOrder, .put 3 7 KLfuCache.inOrder, .put 4 5 KLfuCache.inOrder, .purge,
    .put 4 6 KLfuCache.inOrder, .get 3 KLfuCache.inOrder]

theorem slices_alone_sharedOut :
    ∃ h, run (step id) (create 4 2 10 8 : KHashLfuCache Nat Nat) sharedOut = .ok h ∧
      Shards id 2 (.create (narrowed (sliceSize 4 2)) 10) sharedOut h := by
  obtain ⟨h, reached, shards, -⟩ := slices_alone 4 2 10 8 (by decide) id sharedOut
  exact ⟨h, reached, shards⟩

end KHashLfuCache

end KamaWebserver
