import KamaWebserver.Library.Renaming
import KamaWebserver.LfuLookup

set_option autoImplicit false

namespace KamaWebserver

open Outcome Renaming Transition

namespace IterOrder

variable {Key : Type}

/-- The order depends on the keys only, and not on where the nodes are in memory. -/
def KeyOnly (order : IterOrder (MapEntry Key)) : Prop :=
  ∀ (name : NodePtr → NodePtr) (entries : List (MapEntry Key)),
    order.arrange (entries.map (renamed name)) = (order.arrange entries).map (renamed name)

theorem inOrder_keyOnly : (KLfuCache.inOrder : IterOrder (MapEntry Key)).KeyOnly :=
  fun _ _ => rfl

end IterOrder

/-- The iteration that a call may cause depends on the keys only. -/
def CacheOp.KeyOnly {Key Value : Type} : CacheOp Key Value → Prop
  | .put _ _ order => order.KeyOnly
  | .get _ order => order.KeyOnly
  | .purge => True

namespace KLfuCache

variable {Key Value : Type}

/-- Two nodes that differ at most in when they joined their lists. -/
structure Alike (node other : Node Key Value) : Prop where
  freq : other.freq = node.freq
  key : other.key = node.key
  value : other.value = node.value

/-- The second cache has its nodes `k` further on and has counted `extra` more accesses; the
values of `minFreq_` are in the given relation. -/
structure Shifted (level : Nat → Nat → Prop) (k : Nat) (extra : Int)
    (c s : KLfuCache Key Value) : Prop where
  capacity : s.capacity = c.capacity
  maxAverageNum : s.maxAverageNum = c.maxAverageNum
  total : s.curTotalNum = c.curTotalNum + extra
  minFreq : level c.minFreq s.minFreq
  nodeMap : Renames (· + k) c.nodeMap s.nodeMap
  lists : Renames (List.map (· + k)) c.freqToFreqList s.freqToFreqList
  fresh : s.fresh = c.fresh + k
  content : ∀ node < c.fresh, Alike (c.heap node) (s.heap (node + k))
  known : ∀ entry ∈ c.nodeMap.entries, entry.2 < c.fresh

variable {level : Nat → Nat → Prop} {k : Nat} {extra : Int} {c s : KLfuCache Key Value}
  {node : NodePtr}

theorem shift_injective (k : Nat) : Function.Injective (· + k : Nat → Nat) :=
  fun _ _ same => Nat.add_right_cancel same

theorem Shifted.size (shifted : Shifted level k extra c s) : s.size = c.size :=
  shifted.nodeMap.length

theorem Shifted.listAt (shifted : Shifted level k extra c s) (freq : Nat) :
    Related (fun list other => list = c.listOf freq ∧ other = list.map (· + k))
      (c.listAt freq) (s.listAt freq) := by
  unfold KLfuCache.listAt listOf
  rw [shifted.lists.lookup]
  cases c.freqToFreqList.lookup freq with
  | none => rfl
  | some list => exact ⟨rfl, rfl⟩

theorem Shifted.setNode (shifted : Shifted level k extra c s) (node : NodePtr)
    {content other : Node Key Value} (alike : Alike content other) :
    Shifted level k extra (c.setNode node content) (s.setNode (node + k) other) := by
  refine ⟨shifted.capacity, shifted.maxAverageNum, shifted.total, shifted.minFreq,
    shifted.nodeMap, shifted.lists, shifted.fresh, fun met inside => ?_, shifted.known⟩
  simp only [KLfuCache.setNode]
  by_cases same : met = node
  · rw [same, Function.update_self, Function.update_self]
    exact alike
  · rw [Function.update_of_ne same, Function.update_of_ne ((shift_injective k).ne same)]
    exact shifted.content met inside

theorem Shifted.setFreq (shifted : Shifted level k extra c s) (inside : node < c.fresh)
    (freq : Nat) : Shifted level k extra (c.setFreq node freq) (s.setFreq (node + k) freq) := by
  have alike := shifted.content node inside
  exact shifted.setNode node ⟨rfl, alike.key, alike.value⟩

theorem Shifted.setValue (shifted : Shifted level k extra c s) (inside : node < c.fresh)
    (value : Value) :
    Shifted level k extra (c.setValue node value) (s.setValue (node + k) value) := by
  have alike := shifted.content node inside
  exact shifted.setNode node ⟨alike.freq, alike.key, rfl⟩

theorem Shifted.setList (shifted : Shifted level k extra c s) (freq : Nat) (list : FreqList) :
    Shifted level k extra (c.setList freq list) (s.setList freq (list.map (· + k))) :=
  ⟨shifted.capacity, shifted.maxAverageNum, shifted.total, shifted.minFreq, shifted.nodeMap,
    shifted.lists.insert freq list, shifted.fresh, shifted.content, shifted.known⟩

theorem Shifted.removeFromFreqList (shifted : Shifted level k extra c s)
    (inside : node < c.fresh) :
    Related (fun next other => Shifted level k extra next other ∧
      ∃ lists, next = { c with freqToFreqList := lists })
      (c.removeFromFreqList node) (s.removeFromFreqList (node + k)) := by
  unfold KLfuCache.removeFromFreqList
  rw [(shifted.content node inside).freq]
  refine (shifted.listAt _).bind fun list other same => ?_
  obtain ⟨-, rfl⟩ := same
  refine ⟨?_, _, rfl⟩
  rw [← List.map_erase (shift_injective k)]
  exact shifted.setList _ _

theorem Shifted.addToFreqList (shifted : Shifted level k extra c s) (inside : node < c.fresh) :
    Shifted level k extra (c.addToFreqList node) (s.addToFreqList (node + k)) := by
  have alike := shifted.content node inside
  have list : (s.freqToFreqList.lookup (s.heap (node + k)).freq).getD [] ++ [node + k] =
      ((c.freqToFreqList.lookup (c.heap node).freq).getD [] ++ [node]).map (· + k) := by
    rw [alike.freq, shifted.lists.lookup]
    cases c.freqToFreqList.lookup (c.heap node).freq with
    | none => rfl
    | some list => simp
  have placed := shifted.setList (c.heap node).freq
    ((c.freqToFreqList.lookup (c.heap node).freq).getD [] ++ [node])
  rw [← list] at placed
  unfold KLfuCache.addToFreqList
  dsimp only
  rw [alike.freq] at placed ⊢
  have later : Alike { c.heap node with joined := c.clock }
      { s.heap (node + k) with joined := s.clock } := ⟨alike.freq, alike.key, alike.value⟩
  have moved := placed.setNode node later
  exact ⟨moved.capacity, moved.maxAverageNum, moved.total, moved.minFreq, moved.nodeMap,
    moved.lists, moved.fresh, moved.content, moved.known⟩

theorem Shifted.age (shifted : Shifted level k extra c s) (inside : node < c.fresh) :
    Related (fun next other => Shifted level k extra next other ∧ next.fresh = c.fresh)
      (c.age node) (s.age (node + k)) := by
  unfold KLfuCache.age
  refine (shifted.removeFromFreqList inside).bind ?_
  rintro removed other ⟨kept, lists, rfl⟩
  refine ⟨?_, rfl⟩
  rw [(kept.content node inside).freq, kept.maxAverageNum]
  exact (kept.setFreq inside _).addToFreqList inside

theorem Shifted.ageAll (shifted : Shifted level k extra c s) (nodes : List NodePtr)
    (inside : ∀ node ∈ nodes, node < c.fresh) :
    Related (Shifted level k extra) (c.ageAll nodes) (s.ageAll (nodes.map (· + k))) := by
  induction nodes generalizing c s with
  | nil => exact shifted
  | cons node nodes ih =>
      obtain ⟨first, rest⟩ := List.forall_mem_cons.mp inside
      rw [List.map_cons]
      refine (shifted.age first).bind ?_
      rintro aged other ⟨kept, fresh⟩
      exact ih kept fun met later => fresh.symm ▸ rest met later

/-- `updateMinFreq` looks at the indices of the lists and at which are empty. -/
theorem leastIndex_renamed (name : NodePtr → NodePtr) (minFreq : Nat)
    (lists : List ((_ : Nat) × FreqList)) :
    leastIndex minFreq (lists.map (renamed (List.map name))) = leastIndex minFreq lists := by
  induction lists generalizing minFreq with
  | nil => rfl
  | cons pair lists ih =>
      rw [List.map_cons, leastIndex, leastIndex, ih]
      simp only [renamed, Sigma.map, List.isEmpty_map, id]

theorem Shifted.updateMinFreq (shifted : Shifted level k extra c s)
    (refl : ∀ minFreq, level minFreq minFreq) :
    Shifted level k extra c.updateMinFreq s.updateMinFreq := by
  have least : s.updateMinFreq.minFreq = c.updateMinFreq.minFreq := by
    unfold KLfuCache.updateMinFreq
    rw [shifted.lists, leastIndex_renamed]
  refine ⟨shifted.capacity, shifted.maxAverageNum, shifted.total, ?_, shifted.nodeMap,
    shifted.lists, shifted.fresh, shifted.content, shifted.known⟩
  rw [least]
  exact refl _

theorem Shifted.handleOverMaxAverageNum (shifted : Shifted level k extra c s)
    (refl : ∀ minFreq, level minFreq minFreq) {order : IterOrder (MapEntry Key)}
    (keyOnly : order.KeyOnly) :
    Related (Shifted level k extra) (c.handleOverMaxAverageNum order)
      (s.handleOverMaxAverageNum order) := by
  have nodes : (order.arrange s.nodeMap.entries).map (·.2) =
      ((order.arrange c.nodeMap.entries).map (·.2)).map (· + k) := by
    rw [shifted.nodeMap, keyOnly, List.map_map, List.map_map]
    rfl
  have inside : ∀ node ∈ (order.arrange c.nodeMap.entries).map (·.2), node < c.fresh := by
    intro node met
    obtain ⟨entry, arranged, rfl⟩ := List.mem_map.mp met
    exact shifted.known entry ((order.perm _).mem_iff.mp arranged)
  unfold KLfuCache.handleOverMaxAverageNum
  rw [shifted.nodeMap.isEmpty, nodes]
  split
  · exact shifted
  · exact (shifted.ageAll _ inside).bind fun aged other kept => kept.updateMinFreq refl

/-- An access counts the same way for aging in both caches. -/
theorem Shifted.addFreqNum (shifted : Shifted level k extra c s)
    (refl : ∀ minFreq, level minFreq minFreq) {order : IterOrder (MapEntry Key)}
    (keyOnly : order.KeyOnly)
    (same : c.maxAverageNum < averageOf (c.curTotalNum + 1 + extra) c.size ↔
      c.maxAverageNum < averageOf (c.curTotalNum + 1) c.size) :
    Related (Shifted level k extra) (c.addFreqNum order) (s.addFreqNum order) := by
  have total : s.curTotalNum + 1 = c.curTotalNum + 1 + extra := by
    rw [shifted.total]
    omega
  have counted : Shifted level k extra
      { c with
        curTotalNum := c.curTotalNum + 1
        curAverageNum := KLfuCache.average { c with curTotalNum := c.curTotalNum + 1 } }
      { s with
        curTotalNum := s.curTotalNum + 1
        curAverageNum := KLfuCache.average { s with curTotalNum := s.curTotalNum + 1 } } :=
    ⟨shifted.capacity, shifted.maxAverageNum, total, shifted.minFreq, shifted.nodeMap,
      shifted.lists, shifted.fresh, shifted.content, shifted.known⟩
  have due : s.maxAverageNum < KLfuCache.average { s with curTotalNum := s.curTotalNum + 1 } ↔
      c.maxAverageNum < KLfuCache.average { c with curTotalNum := c.curTotalNum + 1 } := by
    rw [average_eq, average_eq, shifted.maxAverageNum]
    change c.maxAverageNum < averageOf (s.curTotalNum + 1) s.size ↔ _
    rw [total, shifted.size]
    exact same
  unfold KLfuCache.addFreqNum
  by_cases exceeds : c.maxAverageNum <
      KLfuCache.average { c with curTotalNum := c.curTotalNum + 1 }
  · simp only [if_pos exceeds, if_pos (due.mpr exceeds)]
    exact counted.handleOverMaxAverageNum refl keyOnly
  · simp only [if_neg exceeds, if_neg fun on => exceeds (due.mp on)]
    exact counted

theorem Shifted.raiseMinFreq (shifted : Shifted Eq k extra c s) (left : Nat) :
    Related (fun next other => Shifted Eq k extra next other ∧
      ∃ minFreq, next = { c with minFreq }) (c.raiseMinFreq left) (s.raiseMinFreq left) := by
  unfold KLfuCache.raiseMinFreq
  rw [← shifted.minFreq]
  split
  · refine (shifted.listAt left).bind fun list other same => ?_
    obtain ⟨-, rfl⟩ := same
    rw [List.isEmpty_map]
    split
    · exact ⟨⟨shifted.capacity, shifted.maxAverageNum, shifted.total, rfl, shifted.nodeMap,
        shifted.lists, shifted.fresh, shifted.content, shifted.known⟩, _, rfl⟩
    · exact ⟨shifted, c.minFreq, rfl⟩
  · exact ⟨shifted, c.minFreq, rfl⟩

/-- The counts with and without `extra` come out on the same side of the bound. -/
def AgesAlike (c : KLfuCache Key Value) (extra total : Int) (size : Nat) : Prop :=
  c.maxAverageNum < averageOf (total + extra) size ↔ c.maxAverageNum < averageOf total size

instance (c : KLfuCache Key Value) (extra total : Int) (size : Nat) :
    Decidable (c.AgesAlike extra total size) :=
  inferInstanceAs (Decidable (c.maxAverageNum < averageOf (total + extra) size ↔
    c.maxAverageNum < averageOf total size))

theorem Shifted.getInternal (shifted : Shifted Eq k extra c s) (inside : node < c.fresh)
    {order : IterOrder (MapEntry Key)} (keyOnly : order.KeyOnly)
    (same : c.AgesAlike extra (c.curTotalNum + 1) c.size) :
    Related (Shifted Eq k extra) (c.getInternal node order) (s.getInternal (node + k) order) := by
  have freq := (shifted.content node inside).freq
  unfold KLfuCache.getInternal
  dsimp only
  rw [freq]
  refine (shifted.removeFromFreqList inside).bind ?_
  rintro removed other ⟨kept, lists, rfl⟩
  have promoted := (kept.setFreq inside ((c.heap node).freq + 1)).addToFreqList inside
  refine (promoted.raiseMinFreq _).bind ?_
  rintro raised other ⟨kept, minFreq, rfl⟩
  exact kept.addFreqNum (fun _ => rfl) keyOnly same

theorem Shifted.setMinFreq {other : Nat → Nat → Prop} {minFreq minFreq' : Nat}
    (shifted : Shifted level k extra c s) (related : other minFreq minFreq') :
    Shifted other k extra { c with minFreq := minFreq } { s with minFreq := minFreq' } :=
  ⟨shifted.capacity, shifted.maxAverageNum, shifted.total, related, shifted.nodeMap,
    shifted.lists, shifted.fresh, shifted.content, shifted.known⟩

theorem Shifted.decreaseFreqNum (shifted : Shifted level k extra c s) (num : Nat) :
    Shifted level k extra (c.decreaseFreqNum num) (s.decreaseFreqNum num) := by
  have total : s.curTotalNum - num = c.curTotalNum - num + extra := by
    rw [shifted.total]
    omega
  exact ⟨shifted.capacity, shifted.maxAverageNum, total, shifted.minFreq, shifted.nodeMap,
    shifted.lists, shifted.fresh, shifted.content, shifted.known⟩

theorem Shifted.purge (shifted : Shifted level k extra c s) :
    Shifted level k extra c.purge s.purge :=
  ⟨shifted.capacity, shifted.maxAverageNum, shifted.total, shifted.minFreq, renames_empty _,
    renames_empty _, shifted.fresh, shifted.content, nofun⟩

variable [DecidableEq Key]

theorem Shifted.eraseKey (shifted : Shifted level k extra c s) (key : Key) :
    Shifted level k extra (c.eraseKey key) (s.eraseKey key) :=
  ⟨shifted.capacity, shifted.maxAverageNum, shifted.total, shifted.minFreq,
    shifted.nodeMap.erase key, shifted.lists, shifted.fresh, shifted.content,
    fun entry inside => shifted.known entry ((List.kerase_sublist _ _).subset inside)⟩

theorem Shifted.insertNode (shifted : Shifted level k extra c s) (key : Key) (value : Value) :
    Shifted level k extra (c.insertNode key value) (s.insertNode key value) := by
  have new : s.fresh = c.fresh + k := shifted.fresh
  refine ⟨shifted.capacity, shifted.maxAverageNum, shifted.total, shifted.minFreq, ?_,
    shifted.lists, ?_, fun node inside => ?_, fun entry inside => ?_⟩
  · have named := shifted.nodeMap.insert key c.fresh
    rw [← new] at named
    exact named
  · change s.fresh + 1 = c.fresh + 1 + k
    rw [new, Nat.add_right_comm]
  · rw [heap_insertNode, heap_insertNode, new]
    by_cases same : node = c.fresh
    · rw [same, Function.update_self, Function.update_self]
      exact ⟨rfl, rfl, rfl⟩
    · have older : node < c.fresh := Nat.lt_of_le_of_ne (Nat.le_of_lt_succ inside) same
      rw [Function.update_of_ne same, Function.update_of_ne ((shift_injective k).ne same)]
      exact shifted.content node older
  · have entries : (c.insertNode key value).nodeMap.entries =
        ⟨key, c.fresh⟩ :: c.nodeMap.entries.kerase key := AList.entries_insert
    rw [entries] at inside
    rcases List.mem_cons.mp inside with rfl | older
    · exact Nat.lt_succ_self _
    · exact Nat.lt_succ_of_lt (shifted.known entry ((List.kerase_sublist _ _).subset older))

/-- Once a node is filed under frequency 1, the values of `minFreq_` agree. -/
theorem Shifted.fill (shifted : Shifted level k extra c s)
    (refl : ∀ minFreq, level minFreq minFreq)
    (one : ∀ minFreq other, level minFreq other → min minFreq 1 = min other 1)
    {key : Key} (absent : key ∉ c.nodeMap) (value : Value) {order : IterOrder (MapEntry Key)}
    (keyOnly : order.KeyOnly)
    (same : c.AgesAlike extra (c.curTotalNum + 1) (c.size + 1)) :
    Related (Shifted Eq k extra)
      (do
        let next ← ((c.insertNode key value).addToFreqList c.fresh).addFreqNum order
        return { next with minFreq := min next.minFreq 1 })
      (do
        let next ← ((s.insertNode key value).addToFreqList s.fresh).addFreqNum order
        return { next with minFreq := min next.minFreq 1 }) := by
  have filled := (shifted.insertNode key value).addToFreqList (Nat.lt_succ_self c.fresh)
  rw [← shifted.fresh] at filled
  have size : ((c.insertNode key value).addToFreqList c.fresh).size = c.size + 1 := by
    change (c.insertNode key value).nodeMap.entries.length = _
    rw [entries_insertNode c absent]
    rfl
  have counted : Related (Shifted level k extra)
      (((c.insertNode key value).addToFreqList c.fresh).addFreqNum order)
      (((s.insertNode key value).addToFreqList s.fresh).addFreqNum order) := by
    refine filled.addFreqNum refl keyOnly ?_
    rw [size]
    exact same
  exact counted.bind fun next other kept => kept.setMinFreq (one _ _ kept.minFreq)

/-- Before the first `put` the caches may differ in `minFreq_`, which is not looked at. -/
def Matching (k : Nat) (extra : Int) (c s : KLfuCache Key Value) : Prop :=
  Shifted Eq k extra c s ∨ c.nodeMap.entries = [] ∧
    Shifted (fun minFreq other => minFreq = other ∨ 1 ≤ minFreq ∧ 1 ≤ other) k extra c s

variable {key : Key}

theorem Matching.lookup (matching : Matching k extra c s) :
    s.nodeMap.lookup key = (c.nodeMap.lookup key).map (· + k) := by
  rcases matching with shifted | ⟨-, shifted⟩
  · exact shifted.nodeMap.lookup key
  · exact shifted.nodeMap.lookup key

/-- A cache that holds a key has seen a `put`. -/
theorem Matching.shifted (matching : Matching k extra c s)
    (found : c.nodeMap.lookup key = some node) : Shifted Eq k extra c s ∧ node < c.fresh := by
  have entry : (⟨key, node⟩ : MapEntry Key) ∈ c.nodeMap.entries := AList.mem_lookup_iff.mp found
  rcases matching with shifted | ⟨empty, -⟩
  · exact ⟨shifted, shifted.known _ entry⟩
  · rw [empty] at entry
    exact absurd entry List.not_mem_nil

variable [Inhabited Key]

/-- The key that `kickOut` erases, and the frequency it takes off the counter. -/
def kickedOut (c : KLfuCache Key Value) : Key × Nat :=
  match (c.listOf c.minFreq).head? with
  | some node => ((c.heap node).key, c.freqOf node)
  | none => (default, 1)

/-- What `kickOut` leaves, as far as an access after it counts. -/
structure KickedOut (c next : KLfuCache Key Value) : Prop where
  total : next.curTotalNum = c.curTotalNum - c.kickedOut.2
  nodeMap : next.nodeMap = c.nodeMap.erase c.kickedOut.1
  maxAverageNum : next.maxAverageNum = c.maxAverageNum

theorem Shifted.kickOut (shifted : Shifted Eq k extra c s)
    (listed : ∀ node ∈ c.listOf c.minFreq, node < c.fresh) :
    Related (fun next other => Shifted Eq k extra next other ∧ KickedOut c next)
      c.kickOut s.kickOut := by
  unfold KLfuCache.kickOut
  rw [← shifted.minFreq]
  refine (shifted.listAt c.minFreq).bind fun list other same => ?_
  obtain ⟨rfl, rfl⟩ := same
  rw [List.head?_map]
  cases first : (c.listOf c.minFreq).head? with
  | none =>
      refine (shifted.listAt 1).bind fun one other _ => ?_
      refine ⟨(shifted.eraseKey default).decreaseFreqNum 1, ?_, ?_, rfl⟩
      · unfold kickedOut
        rw [first]
        rfl
      · unfold kickedOut
        rw [first]
        rfl
  | some node =>
      have inside : node < c.fresh := listed node (List.mem_of_head? first)
      refine (shifted.removeFromFreqList inside).bind ?_
      rintro removed other ⟨kept, lists, rfl⟩
      have alike := kept.content node inside
      refine ⟨?_, ?_, ?_, rfl⟩
      · change Shifted Eq k extra _ ((other.eraseKey (other.heap (node + k)).key).decreaseFreqNum
          (other.heap (node + k)).freq)
        rw [alike.key, alike.freq]
        exact (kept.eraseKey _).decreaseFreqNum _
      · unfold kickedOut
        rw [first]
        rfl
      · unfold kickedOut
        rw [first]
        rfl

/-- The counter and the number of entries with which a call decides whether aging is due, if
it counts an access. -/
def countedIn (c : KLfuCache Key Value) : CacheOp Key Value → Option (Int × Nat)
  | .put key _ _ =>
      if c.capacity = 0 then none
      else if key ∈ c.nodeMap then some (c.curTotalNum + 1, c.size)
      else if c.size = c.capacity then
        some (c.curTotalNum - c.kickedOut.2 + 1,
          (c.nodeMap.erase c.kickedOut.1).entries.length + 1)
      else some (c.curTotalNum + 1, c.size + 1)
  | .get key _ => if key ∈ c.nodeMap then some (c.curTotalNum + 1, c.size) else none
  | .purge => none

/-- The call decides about aging as it would if `extra` more accesses had been counted. -/
def SameAging (extra : Int) (c : KLfuCache Key Value) (op : CacheOp Key Value) : Prop :=
  match c.countedIn op with
  | some (total, size) => c.AgesAlike extra total size
  | none => True

instance (extra : Int) (c : KLfuCache Key Value) (op : CacheOp Key Value) :
    Decidable (SameAging extra c op) := by
  unfold SameAging
  split <;> infer_instance

/-- The results of the `get` calls. -/
def answers (c : KLfuCache Key Value) :
    List (CacheOp Key Value) → Except Fault (List (Option Value))
  | [] => .ok []
  | .put key value order :: ops => do
      let c ← c.put key value order
      answers c ops
  | .get key order :: ops => do
      let (c, result) ← c.get key order
      let results ← answers c ops
      return result :: results
  | .purge :: ops => answers c.purge ops

theorem Matching.putInternal {members : Set NodePtr} (matching : Matching k extra c s)
    (holding : c.Holding members) (room : c.capacity ≠ 0) (absent : key ∉ c.nodeMap)
    (value : Value) {order : IterOrder (MapEntry Key)} (keyOnly : order.KeyOnly)
    (same : SameAging extra c (.put key value order)) :
    Related (Matching k extra) (c.putInternal key value order)
      (s.putInternal key value order) := by
  have sizes : s.size = c.size ∧ s.capacity = c.capacity := by
    rcases matching with shifted | ⟨-, shifted⟩
    · exact ⟨shifted.size, shifted.capacity⟩
    · exact ⟨shifted.size, shifted.capacity⟩
  simp only [SameAging, countedIn, if_neg room, if_neg absent] at same
  suffices filled : Related (Shifted Eq k extra) (c.putInternal key value order)
      (s.putInternal key value order) from filled.mono fun _ _ shifted => .inl shifted
  unfold KLfuCache.putInternal
  rw [sizes.1, sizes.2]
  by_cases full : c.size = c.capacity
  · simp only [if_pos full] at same ⊢
    have shifted : Shifted Eq k extra c s := by
      rcases matching with shifted | ⟨empty, -⟩
      · exact shifted
      · rw [KLfuCache.size, empty] at full
        exact absurd full.symm room
    have listed : ∀ node ∈ c.listOf c.minFreq, node < c.fresh := fun node inside =>
      holding.known node ((holding.linked.filed.mem _ node).mp inside).1
    refine (shifted.kickOut listed).bind ?_
    rintro rest other ⟨kept, total, nodeMap, bound⟩
    refine kept.fill (fun _ => rfl) (fun _ _ same => by rw [same]) ?_ value keyOnly ?_
    · rw [nodeMap, AList.mem_erase]
      exact fun within => absent within.2
    · unfold AgesAlike at same ⊢
      rw [total, bound, KLfuCache.size, nodeMap]
      exact same
  · simp only [if_neg full] at same ⊢
    rcases matching with shifted | ⟨-, shifted⟩
    · exact shifted.fill (fun _ => rfl) (fun _ _ same => by rw [same]) absent value keyOnly same
    · refine shifted.fill (fun _ => .inl rfl) (fun minFreq other level => ?_) absent value keyOnly
        same
      omega

theorem Matching.put {members : Set NodePtr} (matching : Matching k extra c s)
    (holding : c.Holding members) (value : Value) {order : IterOrder (MapEntry Key)}
    (keyOnly : order.KeyOnly) (same : SameAging extra c (.put key value order)) :
    Related (Matching k extra) (c.put key value order) (s.put key value order) := by
  have capacity : s.capacity = c.capacity := by
    rcases matching with shifted | ⟨-, shifted⟩
    · exact shifted.capacity
    · exact shifted.capacity
  unfold KLfuCache.put
  rw [capacity, matching.lookup]
  by_cases closed : c.capacity = 0
  · simp only [if_pos closed]
    exact matching
  · simp only [if_neg closed]
    cases found : c.nodeMap.lookup key with
    | none =>
        exact matching.putInternal holding closed (AList.lookup_eq_none.mp found) value keyOnly
          same
    | some node =>
        obtain ⟨shifted, inside⟩ := matching.shifted found
        have present : key ∈ c.nodeMap := AList.lookup_isSome.mp (by rw [found]; rfl)
        simp only [SameAging, countedIn, if_neg closed, if_pos present] at same
        refine Related.mono ?_ fun _ _ shifted => .inl shifted
        exact (shifted.setValue inside value).getInternal inside keyOnly same

theorem Matching.get (matching : Matching k extra c s) {order : IterOrder (MapEntry Key)}
    (keyOnly : order.KeyOnly) (same : SameAging extra c (.get key order)) :
    Related (fun next other => Matching k extra next.1 other.1 ∧ other.2 = next.2)
      (c.get key order) (s.get key order) := by
  unfold KLfuCache.get
  rw [matching.lookup]
  cases found : c.nodeMap.lookup key with
  | none => exact ⟨matching, rfl⟩
  | some node =>
      obtain ⟨shifted, inside⟩ := matching.shifted found
      have present : key ∈ c.nodeMap := AList.lookup_isSome.mp (by rw [found]; rfl)
      simp only [SameAging, countedIn, if_pos present] at same
      refine (shifted.getInternal inside keyOnly same).map fun next other kept => ?_
      exact ⟨.inl kept, congrArg some (shifted.content node inside).value⟩

/-- Calls that decide alike about aging give the same results. -/
theorem Matching.answers {written : Key → Option Value} {members : Set NodePtr}
    (matching : Matching k extra c s) (answering : c.Answering written members)
    {ops : List (CacheOp Key Value)} (keyOnly : ∀ op ∈ ops, op.KeyOnly)
    (guarded : Guarded step (SameAging extra) c ops) : s.answers ops = c.answers ops := by
  induction ops generalizing c s written members with
  | nil => rfl
  | cons op ops ih =>
      obtain ⟨own, rest⟩ := List.forall_mem_cons.mp keyOnly
      obtain ⟨next, members', taken, kept, -⟩ := answering.step op
      rw [guarded_cons_of_ok taken] at guarded
      cases op with
      | put key value order =>
          have returned : c.put key value order = .ok next := taken
          have related := matching.put answering.holding value own guarded.1
          rw [returned] at related
          obtain ⟨other, returned', later⟩ := related.of_ok
          have equal := ih later kept rest guarded.2
          simp only [KLfuCache.answers, returned, returned', bind, Except.bind]
          exact equal
      | get key order =>
          obtain ⟨⟨next', result⟩, returned, same⟩ := (map_ok_iff _ _ _).mp taken
          obtain rfl : next' = next := same
          have related := matching.get own guarded.1
          rw [returned] at related
          obtain ⟨⟨other, result'⟩, returned', later, found⟩ := related.of_ok
          have equal := ih later kept rest guarded.2
          simp only [KLfuCache.answers, returned, returned', bind, Except.bind]
          dsimp only at found
          rw [equal, found]
      | purge =>
          obtain rfl : c.purge = next := Except.ok.inj taken
          have purged : Matching k extra c.purge s.purge := by
            rcases matching with shifted | ⟨-, shifted⟩
            · exact .inl shifted.purge
            · exact .inr ⟨rfl, shifted.purge⟩
          exact ih purged kept rest guarded.2

/-- A purged cache answers like a new one as long as what it has counted before decides no
aging pass otherwise. -/
theorem purged_answers [Inhabited Value] (capacity : Nat) (maxAverageNum : Int)
    (before later : List (CacheOp Key Value)) (keyOnly : ∀ op ∈ later, op.KeyOnly) :
    ∃ c, Transition.run step (create capacity maxAverageNum) before = .ok c ∧
      (Guarded step (SameAging c.curTotalNum) (create capacity maxAverageNum) later →
        c.purge.answers later = (create capacity maxAverageNum).answers later) := by
  obtain ⟨members, first⟩ : ∃ members, (create capacity maxAverageNum :
      KLfuCache Key Value).Answering (fun _ => none) members :=
    create_answering capacity maxAverageNum
  obtain ⟨c, members', reached, answering, limits⟩ := first.run before
  refine ⟨c, reached, fun guarded => ?_⟩
  have levels : int8Max = c.minFreq ∨ 1 ≤ int8Max ∧ 1 ≤ c.minFreq :=
    .inr ⟨by decide, answering.positive⟩
  have matching : Matching c.fresh c.curTotalNum (create capacity maxAverageNum) c.purge :=
    .inr ⟨rfl, limits.capacity, limits.maxAverageNum, (Int.zero_add _).symm, levels,
      renames_empty _, renames_empty _, (Nat.zero_add _).symm,
      fun node inside => absurd inside (Nat.not_lt_zero node), nofun⟩
  exact matching.answers first keyOnly guarded

/-- Two accesses counted before the purge raise no average above 10. -/
theorem purged_answers_quiet :
    ∃ c, Transition.run step (create 2 10 : KLfuCache String Nat)
        [.put "a" 1 inOrder, .get "a" inOrder] = .ok c ∧
      c.purge.answers [.put "a" 5 inOrder, .get "a" inOrder, .put "b" 6 inOrder,
          .put "c" 7 inOrder, .get "b" inOrder, .get "c" inOrder] =
        .ok [some 5, none, some 7] := by
  obtain ⟨c, reached, equal⟩ := purged_answers 2 10
    ([.put "a" 1 inOrder, .get "a" inOrder] : List (CacheOp String Nat))
    [.put "a" 5 inOrder, .get "a" inOrder, .put "b" 6 inOrder, .put "c" 7 inOrder,
      .get "b" inOrder, .get "c" inOrder]
    (by simp [CacheOp.KeyOnly, IterOrder.inOrder_keyOnly])
  have total : c.curTotalNum = 2 := by
    have counted : (Transition.run step (create 2 10 : KLfuCache String Nat)
        [.put "a" 1 inOrder, .get "a" inOrder]).map curTotalNum = .ok 2 := by decide +kernel
    rw [reached] at counted
    exact Except.ok.inj counted
  refine ⟨c, reached, (equal ?_).trans (by decide +kernel)⟩
  rw [total]
  decide +kernel

/-- Four accesses counted before the purge make aging due at every later call, so that another
key is evicted. -/
theorem purged_differs :
    ∃ c, Transition.run step (create 2 2 : KLfuCache String Nat)
        [.put "a" 1 inOrder, .get "a" inOrder, .get "a" inOrder, .get "a" inOrder] = .ok c ∧
      c.purge.answers [.put "a" 1 inOrder, .put "b" 2 inOrder, .get "b" inOrder,
          .put "c" 3 inOrder, .get "a" inOrder] = .ok [some 2, some 1] ∧
      (create 2 2 : KLfuCache String Nat).answers [.put "a" 1 inOrder, .put "b" 2 inOrder,
          .get "b" inOrder, .put "c" 3 inOrder, .get "a" inOrder] = .ok [some 2, none] := by
  obtain ⟨c, reached, rest⟩ := (bind_ok_iff _ _ _).mp
    (show (Transition.run step (create 2 2 : KLfuCache String Nat)
        [.put "a" 1 inOrder, .get "a" inOrder, .get "a" inOrder, .get "a" inOrder] >>=
      fun c => c.purge.answers [.put "a" 1 inOrder, .put "b" 2 inOrder, .get "b" inOrder,
          .put "c" 3 inOrder, .get "a" inOrder]) = .ok [some 2, some 1] by decide +kernel)
  exact ⟨c, reached, rest, by decide +kernel⟩

end KLfuCache

end KamaWebserver
