import KamaWebserver.LfuInvariant

set_option autoImplicit false

namespace KamaWebserver.KLfuCache

open Outcome

variable {Key Value : Type} [DecidableEq Key]

theorem nodes_eraseKey (c : KLfuCache Key Value) {entry : MapEntry Key}
    (inside : entry ∈ c.nodeMap.entries) :
    c.nodes.Perm (entry.2 :: (c.eraseKey entry.1).nodes) := by
  obtain ⟨node, before, after, -, split, erased⟩ :=
    List.exists_of_kerase (List.mem_keys_of_mem inside)
  have here : (⟨entry.1, node⟩ : MapEntry Key) ∈ c.nodeMap.entries := by
    rw [split]
    exact List.mem_append_right _ List.mem_cons_self
  have same : node = entry.2 := c.nodeMap.nodupKeys.eq_of_mk_mem here inside
  have left : (c.eraseKey entry.1).nodes = before.map (·.2) ++ after.map (·.2) := by
    rw [← List.map_append, ← erased]
    rfl
  have all : c.nodes = before.map (·.2) ++ node :: after.map (·.2) := by
    unfold nodes
    rw [split, List.map_append, List.map_cons]
  rw [all, left, ← same]
  exact List.perm_middle

/-- `kickOut` erases one key and moves no node in memory. -/
structure GaveUp (c : KLfuCache Key Value) (key : Key) (c' : KLfuCache Key Value) : Prop where
  nodeMap : c'.nodeMap = c.nodeMap.erase key
  capacity : c'.capacity = c.capacity
  maxAverageNum : c'.maxAverageNum = c.maxAverageNum
  minFreq : c'.minFreq = c.minFreq
  heap : c'.heap = c.heap
  fresh : c'.fresh = c.fresh
  lists : ∀ freq, c.HasList freq → c'.HasList freq

/-- `kickOut` removes a cached node and takes its frequency off the counter. -/
structure Removed (c : KLfuCache Key Value) (victim : MapEntry Key) (c' : KLfuCache Key Value) :
    Prop extends GaveUp c victim.1 c' where
  inside : victim ∈ c.nodeMap.entries
  agrees : c'.Agrees
  total : c'.curTotalNum = c.curTotalNum - c.freqOf victim.2

/-- The node is the one of the least frequency that joined its list first. -/
structure Evicted (c : KLfuCache Key Value) (victim : MapEntry Key) (c' : KLfuCache Key Value) :
    Prop extends Removed c victim c' where
  least : ∀ other ∈ c.nodes, c.freqOf victim.2 ≤ c.freqOf other
  earliest : ∀ other ∈ c.nodes, c.freqOf other = c.freqOf victim.2 → other ≠ victim.2 →
    c.joinedOf victim.2 < c.joinedOf other

variable {c c' : KLfuCache Key Value} {victim : MapEntry Key} {members : Set NodePtr}

theorem Removed.nodes (removed : Removed c victim c') : c.nodes.Perm (victim.2 :: c'.nodes) := by
  have same : c'.nodes = (c.eraseKey victim.1).nodes := by
    unfold KLfuCache.nodes eraseKey
    rw [removed.nodeMap]
  rw [same]
  exact c.nodes_eraseKey removed.inside

theorem Removed.size (removed : Removed c victim c') : c'.size + 1 = c.size := by
  have length := removed.nodes.length_eq
  rw [List.length_cons] at length
  rw [size_eq, size_eq, length]

theorem GaveUp.freqOf {key : Key} (gave : GaveUp c key c') : c'.freqOf = c.freqOf := by
  unfold KLfuCache.freqOf
  rw [gave.heap]

theorem GaveUp.cached_subset {key : Key} (gave : GaveUp c key c') : c'.cached ⊆ c.cached := by
  intro node within
  obtain ⟨entry, inside, rfl⟩ := List.mem_map.mp within
  rw [gave.nodeMap] at inside
  exact List.mem_map.mpr ⟨entry, (List.kerase_sublist _ _).subset inside, rfl⟩

/-- Linked nodes that are not cached any more do no harm. -/
theorem GaveUp.holding {key : Key} (gave : GaveUp c key c') (holding : c.Holding members)
    {rest : Set NodePtr} (fewer : rest ⊆ members) (linked : c'.Linked rest)
    (within : c'.cached ⊆ rest) : c'.Holding rest := by
  refine ⟨linked, ?_, within, ?_, ?_⟩
  · intro entry inside
    rw [gave.nodeMap] at inside
    rw [gave.heap]
    exact holding.keyed entry ((List.kerase_sublist _ _).subset inside)
  · rw [gave.fresh]
    exact fun node inside => holding.known node (fewer inside)
  · rw [gave.freqOf]
    exact fun node inside => holding.positive node (fewer inside)

/-- The node whose key is erased is not cached afterwards. -/
theorem GaveUp.not_cached (holding : c.Holding members) {node : NodePtr}
    (gave : GaveUp c (c.heap node).key c') : node ∉ c'.cached := by
  intro within
  obtain ⟨entry, inside, rfl⟩ := List.mem_map.mp within
  rw [gave.nodeMap] at inside
  have older := (List.kerase_sublist _ _).subset inside
  rw [holding.keyed entry older] at inside
  exact List.notMem_keys_kerase _ c.nodeMap.nodupKeys (List.mem_keys_of_mem inside)

/-- A new node in the map and at the end of the list of frequency 1. -/
structure Inserted (c : KLfuCache Key Value) (key : Key) (value : Value)
    (c' : KLfuCache Key Value) : Prop where
  nodeMap : c'.nodeMap = c.nodeMap.insert key c.fresh
  nodes : c'.nodes = c.fresh :: c.nodes
  freqOf : c'.freqOf = Function.update c.freqOf c.fresh 1
  value : (c'.heap c.fresh).value = value
  others : ∀ node, node ≠ c.fresh → (c'.heap node).value = (c.heap node).value
  total : c'.curTotalNum = c.curTotalNum
  capacity : c'.capacity = c.capacity
  maxAverageNum : c'.maxAverageNum = c.maxAverageNum
  minFreq : c'.minFreq = c.minFreq
  lists : ∀ freq, c.HasList freq → c'.HasList freq
  one : c'.HasList 1

theorem entries_insertNode (c : KLfuCache Key Value) {key : Key} (absent : key ∉ c.nodeMap)
    (value : Value) :
    (c.insertNode key value).nodeMap.entries = ⟨key, c.fresh⟩ :: c.nodeMap.entries :=
  AList.entries_insert_of_notMem absent

theorem heap_insertNode (c : KLfuCache Key Value) (key : Key) (value : Value) :
    (c.insertNode key value).heap = Function.update c.heap c.fresh ⟨1, key, value, 0⟩ := rfl

theorem freqOf_insertNode (c : KLfuCache Key Value) (key : Key) (value : Value) :
    (c.insertNode key value).freqOf = Function.update c.freqOf c.fresh 1 := by
  funext node
  unfold freqOf
  rw [heap_insertNode]
  by_cases same : node = c.fresh
  · rw [same, Function.update_self, Function.update_self]
  · rw [Function.update_of_ne same, Function.update_of_ne same]

theorem Holding.insertNode_linked (holding : c.Holding members) (key : Key) (value : Value) :
    (c.insertNode key value).Linked members := by
  refine holding.linked.congr rfl rfl fun node within => ?_
  unfold freqOf joinedOf
  rw [heap_insertNode, Function.update_of_ne (holding.fresh_ne within)]
  exact ⟨rfl, rfl⟩

theorem Holding.insertNode_keyed (holding : c.Holding members) {key : Key}
    (absent : key ∉ c.nodeMap) (value : Value) {entry : MapEntry Key}
    (inside : entry ∈ (c.insertNode key value).nodeMap.entries) :
    ((c.insertNode key value).heap entry.2).key = entry.1 := by
  rw [entries_insertNode c absent] at inside
  rw [heap_insertNode]
  rcases List.mem_cons.mp inside with rfl | inside
  · rw [Function.update_self]
  · have older : entry.2 ∈ members := holding.within (List.mem_map.mpr ⟨entry, inside, rfl⟩)
    rw [Function.update_of_ne (holding.fresh_ne older)]
    exact holding.keyed entry inside

theorem inserted (c : KLfuCache Key Value) {key : Key} (absent : key ∉ c.nodeMap)
    (value : Value) : Inserted c key value ((c.insertNode key value).addToFreqList c.fresh) := by
  have kept := relinked_addToFreqList (c.insertNode key value) c.fresh
  refine ⟨kept.nodeMap, ?_, by rw [freqOf_addToFreqList, freqOf_insertNode], ?_, ?_,
    kept.curTotalNum, kept.capacity, kept.maxAverageNum, kept.minFreq,
    fun freq has => kept.lists freq has, ?_⟩
  · rw [kept.nodes]
    unfold KLfuCache.nodes
    rw [entries_insertNode c absent, List.map_cons]
  · rw [(kept.content c.fresh).2, heap_insertNode, Function.update_self]
  · intro node different
    rw [(kept.content node).2, heap_insertNode, Function.update_of_ne different]
  · have added := hasList_setList_self (c.insertNode key value) 1
      (((c.insertNode key value).freqToFreqList.lookup 1).getD [] ++ [c.fresh])
    have first : ((c.insertNode key value).heap c.fresh).freq = 1 := by
      rw [heap_insertNode, Function.update_self]
    unfold addToFreqList
    rw [first]
    exact added

theorem Holding.insertNode (holding : c.Holding members) {key : Key} (absent : key ∉ c.nodeMap)
    (value : Value) :
    ((c.insertNode key value).addToFreqList c.fresh).Holding (insert c.fresh members) := by
  have kept := relinked_addToFreqList (c.insertNode key value) c.fresh
  have outside : c.fresh ∉ members := fun within => holding.fresh_ne within rfl
  have done := inserted c absent value
  refine ⟨(holding.insertNode_linked key value).addToFreqList outside, ?_, ?_, ?_, ?_⟩
  · intro entry inside
    rw [kept.nodeMap] at inside
    rw [(kept.content entry.2).1]
    exact holding.insertNode_keyed absent value inside
  · intro node within
    have listed : node ∈ ((c.insertNode key value).addToFreqList c.fresh).nodes := within
    rw [done.nodes] at listed
    rcases List.mem_cons.mp listed with rfl | older
    · exact Set.mem_insert _ _
    · exact Set.mem_insert_of_mem _ (holding.within older)
  · rw [kept.fresh]
    rintro node (rfl | within)
    · exact Nat.lt_succ_self _
    · exact Nat.lt_succ_of_lt (holding.known node within)
  · rw [done.freqOf]
    rintro node (rfl | within)
    · rw [Function.update_self]
    · rw [Function.update_of_ne (holding.fresh_ne within)]
      exact holding.positive node within

/-- The new node is cached and linked. -/
theorem Inserted.agrees {key : Key} {value : Value} (inserted : Inserted c key value c')
    (holding : c'.Holding (insert c.fresh c.cached)) : c'.Agrees := by
  have cached : c'.cached = insert c.fresh c.cached := by
    ext node
    unfold KLfuCache.cached
    rw [inserted.nodes]
    exact List.mem_cons
  rw [← cached] at holding
  exact ⟨holding⟩

/-- A full cache gives up one entry, and only a full one. -/
def MadeRoom (c rest : KLfuCache Key Value) : Prop :=
  (c.size < c.capacity ∧ rest = c) ∨ (c.size = c.capacity ∧ ∃ victim, Evicted c victim rest)

/-- What `put` does with a key that is not cached. -/
structure Stored (c : KLfuCache Key Value) (key : Key) (value : Value)
    (rest filled accessed : KLfuCache Key Value) : Prop where
  room : MadeRoom c rest
  agrees_rest : rest.Agrees
  inserted : Inserted rest key value filled
  agrees_filled : filled.Agrees
  counted : Accessed filled accessed
  agrees : accessed.Agrees

theorem MadeRoom.kept {rest : KLfuCache Key Value} (made : MadeRoom c rest) :
    rest.capacity = c.capacity ∧ rest.maxAverageNum = c.maxAverageNum ∧
      rest.minFreq = c.minFreq := by
  rcases made with ⟨-, rfl⟩ | ⟨-, victim, evicted⟩
  · exact ⟨rfl, rfl, rfl⟩
  · exact ⟨evicted.capacity, evicted.maxAverageNum, evicted.minFreq⟩

theorem MadeRoom.size_lt {rest : KLfuCache Key Value} (made : MadeRoom c rest) :
    rest.size < c.capacity := by
  rcases made with ⟨fits, rfl⟩ | ⟨full, victim, evicted⟩
  · exact fits
  · have smaller := evicted.size
    omega

/-- The new node has frequency 1, aged or not, so that is the least frequency. -/
theorem Stored.consistent {key : Key} {value : Value} {rest filled accessed : KLfuCache Key Value}
    (stored : Stored c key value rest filled accessed) (consistent : c.Consistent) :
    ({ accessed with minFreq := min accessed.minFreq 1 } : KLfuCache Key Value).Consistent := by
  obtain ⟨room, -, inserted, -, counted, agrees⟩ := stored
  have positive : 1 ≤ accessed.minFreq := by
    refine counted.positive ?_
    rw [inserted.minFreq, room.kept.2.2]
    exact consistent.positive_minFreq
  have one : min accessed.minFreq 1 = 1 := Nat.min_eq_right positive
  have new : rest.fresh ∈ filled.cached := by
    show rest.fresh ∈ filled.nodes
    rw [inserted.nodes]
    exact List.mem_cons_self
  have first : filled.freqOf rest.fresh = 1 := by rw [inserted.freqOf, Function.update_self]
  have young : accessed.freqOf rest.fresh = 1 := by
    by_cases due : filled.AgingDue
    · rw [counted.freqOf due _ new, first, inserted.maxAverageNum, room.kept.2.1,
        agedFreq_eq consistent.bound]
      omega
    · rw [(counted.quiet due).1, first]
  refine ⟨⟨agrees.toHolding.setMinFreq _⟩, ?_, fun _ => ?_, ?_, ?_⟩
  · exact Nat.le_of_eq one.symm
  · show IsLeast (Set.image accessed.freqOf accessed.cached) (min accessed.minFreq 1)
    rw [one]
    refine ⟨⟨rest.fresh, counted.kept.cached ▸ new, young⟩, ?_⟩
    rintro freq ⟨node, within, rfl⟩
    exact agrees.positive node within
  · show accessed.size ≤ accessed.capacity
    have length := congrArg List.length inserted.nodes
    rw [List.length_cons, ← size_eq, ← size_eq] at length
    have smaller := room.size_lt
    rw [counted.kept.size, counted.kept.capacity, inserted.capacity, room.kept.1]
    omega
  · show 0 ≤ accessed.maxAverageNum
    rw [counted.kept.maxAverageNum, inserted.maxAverageNum, room.kept.2.1]
    exact consistent.bound

variable [Inhabited Key]

/-- `kickOut` when the list of `minFreq_` has a node. -/
theorem Holding.kickOut_first (holding : c.Holding members) {node : NodePtr} {nodes : FreqList}
    (list : c.listOf c.minFreq = node :: nodes) :
    ∃ c', c.kickOut = .ok c' ∧ c'.Holding (members \ {node}) ∧ GaveUp c (c.heap node).key c' ∧
      c'.curTotalNum = c.curTotalNum - c.freqOf node := by
  have listed : node ∈ c.listOf c.minFreq := by simp [list]
  have has := hasList_of_mem listed
  have inside := ((holding.linked.filed.mem _ node).mp listed).1
  obtain ⟨removed, returned, linked, kept, heap, -⟩ := holding.linked.removeFromFreqList inside
  have gave : GaveUp c (c.heap node).key
      ((removed.eraseKey (c.heap node).key).decreaseFreqNum (c.freqOf node)) := by
    refine ⟨?_, kept.capacity, kept.maxAverageNum, kept.minFreq, heap, kept.fresh, kept.lists⟩
    show removed.nodeMap.erase _ = _
    rw [kept.nodeMap]
  refine ⟨_, ?_, gave.holding holding Set.sdiff_subset
    (linked.congr rfl rfl fun _ _ => ⟨rfl, rfl⟩) fun other within => ⟨?_, ?_⟩, gave, ?_⟩
  · unfold HasList at has
    have first : (c.listOf c.minFreq).head? = some node := by rw [list]; rfl
    simp only [KLfuCache.kickOut, bind_ok_iff]
    refine ⟨_, has, ?_⟩
    simp only [first, bind_ok_iff]
    refine ⟨removed, returned, ?_⟩
    rw [heap]
    rfl
  · exact holding.within (gave.cached_subset within)
  · rintro rfl
    exact GaveUp.not_cached holding gave within
  · show removed.curTotalNum - _ = _
    rw [kept.curTotalNum]

/-- `kickOut` when that list is empty: a default-constructed key is erased. -/
theorem Holding.kickOut_dummy (holding : c.Holding members) (listed : c.Listed)
    (empty : c.listOf c.minFreq = []) :
    ∃ c', c.kickOut = .ok c' ∧ c'.Holding members ∧ GaveUp c default c' := by
  have gave : GaveUp c default ((c.eraseKey default).decreaseFreqNum 1) :=
    ⟨rfl, rfl, rfl, rfl, rfl, rfl, fun _ has => has⟩
  refine ⟨_, ?_, gave.holding holding subset_rfl
    (holding.linked.congr rfl rfl fun _ _ => ⟨rfl, rfl⟩)
    fun node within => holding.within (gave.cached_subset within), gave⟩
  obtain ⟨one, has⟩ := listed
  unfold HasList at one has
  have first : (c.listOf c.minFreq).head? = none := by rw [empty]; rfl
  simp only [KLfuCache.kickOut, bind_ok_iff]
  refine ⟨_, has, ?_⟩
  simp only [first, bind_ok_iff]
  exact ⟨_, one, rfl⟩

/-- When map and lists agree, the first node of the list of `minFreq_` is removed. -/
theorem Agrees.kickOut (agrees : c.Agrees) {node : NodePtr} {nodes : FreqList}
    (list : c.listOf c.minFreq = node :: nodes) :
    ∃ victim c', victim.2 = node ∧ c.kickOut = .ok c' ∧ Removed c victim c' := by
  obtain ⟨c', returned, holding, gave, total⟩ := agrees.toHolding.kickOut_first list
  have listed : node ∈ c.listOf c.minFreq := by simp [list]
  have inside := ((agrees.linked.filed.mem _ node).mp listed).1
  obtain ⟨victim, mapped, rfl⟩ := List.mem_map.mp inside
  rw [agrees.keyed victim mapped] at gave
  have same : c'.cached = c.cached \ {victim.2} := by
    refine subset_antisymm holding.within fun other remains => ?_
    have perm := c.nodes_eraseKey mapped
    have nodes : c'.nodes = (c.eraseKey victim.1).nodes := by
      unfold KLfuCache.nodes eraseKey
      rw [gave.nodeMap]
    have listed : other ∈ c.nodes := remains.1
    rw [perm.mem_iff, List.mem_cons] at listed
    show other ∈ c'.nodes
    rw [nodes]
    exact listed.resolve_left remains.2
  rw [← same] at holding
  exact ⟨victim, c', rfl, returned, gave, mapped, ⟨holding⟩, total⟩

theorem Consistent.kickOut (consistent : c.Consistent) (present : c.cached.Nonempty) :
    ∃ victim c', c.kickOut = .ok c' ∧ Evicted c victim c' := by
  obtain ⟨⟨other, within, freq⟩, lower⟩ := consistent.least present
  have listed := (consistent.toAgrees.mem_listOf c.minFreq other).mpr ⟨within, freq⟩
  obtain ⟨node, rest, list⟩ := List.exists_cons_of_ne_nil (List.ne_nil_of_mem listed)
  obtain ⟨inside, placed, earliest⟩ := consistent.linked.filed.head_earliest list
  obtain ⟨victim, c', rfl, returned, removed⟩ := consistent.toAgrees.kickOut list
  refine ⟨victim, c', returned, removed, ?_, ?_⟩
  · intro other within
    rw [placed]
    exact lower ⟨other, within, rfl⟩
  · intro other within same different
    exact earliest other within (same.trans placed) different

/-- `putInternal` from the point where there is room. -/
theorem Holding.putInternal {rest : KLfuCache Key Value} (holding : rest.Holding members)
    (made : (if c.size = c.capacity then c.kickOut else pure c) = .ok rest) {key : Key}
    (absent : key ∉ rest.nodeMap) (value : Value) (order : IterOrder (MapEntry Key)) :
    ∃ filled accessed, c.putInternal key value order =
        .ok { accessed with minFreq := min accessed.minFreq 1 } ∧
      accessed.Holding (insert rest.fresh members) ∧ Inserted rest key value filled ∧
      filled.Holding (insert rest.fresh members) ∧ Accessed filled accessed := by
  have holding' := holding.insertNode absent value
  obtain ⟨accessed, returned, holding'', counted⟩ := holding'.addFreqNum order
  refine ⟨_, accessed, ?_, holding'', inserted rest absent value, holding', counted⟩
  simp only [KLfuCache.putInternal, bind_ok_iff]
  exact ⟨rest, made, accessed, returned, rfl⟩

theorem Consistent.putInternal (consistent : c.Consistent) (room : 1 ≤ c.capacity) {key : Key}
    (absent : key ∉ c.nodeMap) (value : Value) (order : IterOrder (MapEntry Key)) :
    ∃ rest filled accessed,
      c.putInternal key value order =
        .ok { accessed with minFreq := min accessed.minFreq 1 } ∧
      Stored c key value rest filled accessed := by
  have makes : ∃ rest, (if c.size = c.capacity then c.kickOut else pure c) = .ok rest ∧
      MadeRoom c rest ∧ rest.Agrees ∧ key ∉ rest.nodeMap := by
    by_cases full : c.size = c.capacity
    · have present : c.cached.Nonempty := by
        refine List.exists_mem_of_length_pos ?_
        rw [← size_eq]
        omega
      obtain ⟨victim, rest, returned, evicted⟩ := consistent.kickOut present
      refine ⟨rest, by rw [if_pos full, returned], Or.inr ⟨full, victim, evicted⟩,
        evicted.agrees, ?_⟩
      rw [evicted.nodeMap, AList.mem_erase]
      exact fun within => absent within.2
    · have fits := consistent.fits
      exact ⟨c, by rw [if_neg full]; rfl, Or.inl ⟨by omega, rfl⟩, consistent.toAgrees, absent⟩
  obtain ⟨rest, made, madeRoom, agrees, absent⟩ := makes
  obtain ⟨filled, accessed, returned, holding, inserted, holding', counted⟩ :=
    agrees.toHolding.putInternal made absent value order
  have agrees' : filled.Agrees := inserted.agrees holding'
  exact ⟨rest, filled, accessed, returned, madeRoom, agrees, inserted, agrees', counted,
    agrees'.of_kept counted.kept holding' holding⟩

end KamaWebserver.KLfuCache
