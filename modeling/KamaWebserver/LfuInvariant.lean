import KamaWebserver.LfuAging

set_option autoImplicit false

namespace KamaWebserver.KLfuCache

open Outcome

variable {Key Value : Type}

/-- Between calls the lists agree with the map and `minFreq_` is where `kickOut` finds
its victim. -/
structure Consistent (c : KLfuCache Key Value) : Prop extends Agrees c where
  positive_minFreq : 1 ≤ c.minFreq
  least : c.cached.Nonempty → c.MinFreqLeast
  fits : c.size ≤ c.capacity
  bound : 0 ≤ c.maxAverageNum

/-- The frequency of `other` after an access to `node`. -/
def visitedFreq (c : KLfuCache Key Value) (node other : NodePtr) : Nat :=
  let freq := if other = node then c.freqOf other + 1 else c.freqOf other
  if c.AgingDue then agedFreq c.maxAverageNum freq else freq

/-- An aging pass at this access leaves a frequency that `updateMinFreq` can find. -/
def AgingFinds (c : KLfuCache Key Value) (node : NodePtr) : Prop :=
  c.AgingDue → ∃ other ∈ c.nodes, c.visitedFreq node other < int8Max

/-- What an access to a cached node does. -/
structure Visited (c : KLfuCache Key Value) (node : NodePtr) (c' : KLfuCache Key Value) :
    Prop where
  kept : Kept c c'
  agrees : c.Agrees → c'.Agrees
  total : c'.curTotalNum = c.curTotalNum + 1
  average : c'.curAverageNum = averageOf c'.curTotalNum c.size
  freqOf : ∀ other ∈ c.cached, c'.freqOf other = c.visitedFreq node other
  positive_minFreq : 1 ≤ c.minFreq → 1 ≤ c'.minFreq
  least : c.Agrees → c.MinFreqLeast → c.AgingFinds node → c'.MinFreqLeast
  listed : c.Listed → c'.Listed

variable {c c' : KLfuCache Key Value} {members : Set NodePtr} {node : NodePtr}

theorem Agrees.mem_listOf (agrees : c.Agrees) (freq : Nat) (node : NodePtr) :
    node ∈ c.listOf freq ↔ node ∈ c.cached ∧ c.freqOf node = freq :=
  agrees.linked.filed.mem freq node

theorem Agrees.count (agrees : c.Agrees) (inside : node ∈ c.cached) (freq : Nat) :
    (c.listOf freq).count node = if freq = c.freqOf node then 1 else 0 := by
  by_cases here : freq = c.freqOf node
  · rw [if_pos here]
    refine List.count_eq_one_of_mem (agrees.linked.filed.nodup freq) ?_
    exact (agrees.mem_listOf freq node).mpr ⟨inside, here.symm⟩
  · rw [if_neg here, List.count_eq_zero]
    intro listed
    exact here ((agrees.mem_listOf freq node).mp listed).2.symm

theorem Agrees.nonempty_iff (agrees : c.Agrees) (freq : Nat) :
    c.listOf freq ≠ [] ↔ freq ∈ Set.image c.freqOf c.cached := by
  constructor
  · intro full
    obtain ⟨node, listed⟩ := List.exists_mem_of_ne_nil _ full
    exact ⟨node, (agrees.mem_listOf freq node).mp listed⟩
  · rintro ⟨node, inside, placed⟩
    exact List.ne_nil_of_mem ((agrees.mem_listOf freq node).mpr ⟨inside, placed⟩)

theorem raiseMinFreq_eq {left : Nat} (has : c.HasList left) :
    c.raiseMinFreq left =
      .ok (if left = c.minFreq ∧ c.listOf left = [] then { c with minFreq := c.minFreq + 1 }
        else c) := by
  unfold HasList at has
  unfold raiseMinFreq
  by_cases same : left = c.minFreq
  · rw [if_pos same, has]
    cases list : c.listOf left with
    | nil => simp [same, Bind.bind, Except.bind, Pure.pure, Except.pure]
    | cons first rest => simp [Bind.bind, Except.bind, Pure.pure, Except.pure]
  · rw [if_neg same, if_neg fun both => same both.1]

/-- Promoting a node and raising `minFreq_` when its list became empty keeps `minFreq_`
the least frequency. -/
theorem MinFreqLeast.raise (least : c.MinFreqLeast) (agrees : c'.Agrees) (kept : Kept c c')
    (inside : node ∈ c.cached)
    (freqs : c'.freqOf = Function.update c.freqOf node (c.freqOf node + 1)) :
    IsLeast (Set.image c'.freqOf c'.cached)
      (if c.freqOf node = c.minFreq ∧ c'.listOf (c.freqOf node) = [] then c.minFreq + 1
        else c.minFreq) := by
  have promoted : c'.freqOf node = c.freqOf node + 1 := by rw [freqs, Function.update_self]
  have others : ∀ other, other ≠ node → c'.freqOf other = c.freqOf other := fun other different =>
    by rw [freqs, Function.update_of_ne different]
  have bound : ∀ other ∈ c.cached, c.minFreq ≤ c.freqOf other := fun other within =>
    least.2 ⟨other, within, rfl⟩
  rw [kept.cached]
  split
  · rename_i emptied
    refine ⟨⟨node, inside, by rw [promoted, emptied.1]⟩, ?_⟩
    rintro freq ⟨other, within, rfl⟩
    by_cases same : other = node
    · rw [same, promoted, emptied.1]
    · have lower := bound other within
      have absent : other ∉ c'.listOf (c.freqOf node) := by simp [emptied.2]
      rw [agrees.mem_listOf, kept.cached] at absent
      rw [others other same] at absent ⊢
      have different : c.freqOf other ≠ c.freqOf node := fun equal => absent ⟨within, equal⟩
      omega
  · rename_i stays
    refine ⟨?_, ?_⟩
    · by_cases alone : c.freqOf node = c.minFreq
      · have full : c'.listOf (c.freqOf node) ≠ [] := fun empty => stays ⟨alone, empty⟩
        obtain ⟨other, listed⟩ := List.exists_mem_of_ne_nil _ full
        rw [agrees.mem_listOf, kept.cached] at listed
        exact ⟨other, listed.1, listed.2.trans alone⟩
      · obtain ⟨other, within, freq⟩ := least.1
        have different : other ≠ node := fun same => alone (same ▸ freq)
        exact ⟨other, within, (others other different).trans freq⟩
    · rintro freq ⟨other, within, rfl⟩
      have lower := bound other within
      by_cases same : other = node
      · rw [same, promoted]
        rw [same] at lower
        omega
      · rw [others other same]
        exact lower

/-- What the part of `getInternal` before `addFreqNum` does. -/
structure Promoted (c : KLfuCache Key Value) (node : NodePtr) (c' : KLfuCache Key Value) :
    Prop where
  kept : Kept c c'
  total : c'.curTotalNum = c.curTotalNum
  freqOf : c'.freqOf = Function.update c.freqOf node (c.freqOf node + 1)
  positive : 1 ≤ c.minFreq → 1 ≤ c'.minFreq
  least : c.Agrees → c.MinFreqLeast → c'.MinFreqLeast
  listed : c.Listed → c'.Listed

theorem Holding.promote (holding : c.Holding members) (inside : node ∈ c.cached) :
    ∃ removed raised, c.removeFromFreqList node = .ok removed ∧
      ((removed.setFreq node (c.freqOf node + 1)).addToFreqList node).raiseMinFreq
        (c.freqOf node) = .ok raised ∧
      raised.Holding members ∧ Promoted c node raised := by
  obtain ⟨removed, returned, heap, -, move⟩ := holding.linked.move (holding.within inside)
  obtain ⟨linked, moved, freqs, has⟩ := move (c.freqOf node + 1)
  let promoted := (removed.setFreq node (c.freqOf node + 1)).addToFreqList node
  have holding' : promoted.Holding members := by
    refine holding.of_kept moved.toKept linked fun other within => ?_
    rw [freqs]
    by_cases same : other = node
    · rw [same, Function.update_self]
      omega
    · rw [Function.update_of_ne same]
      exact holding.positive other within
  have least : c.Agrees → c.MinFreqLeast → IsLeast (Set.image promoted.freqOf promoted.cached)
      (if c.freqOf node = c.minFreq ∧ promoted.listOf (c.freqOf node) = [] then c.minFreq + 1
        else c.minFreq) := fun agrees least =>
    least.raise (agrees.of_kept moved.toKept holding holding') moved.toKept inside freqs
  have there : promoted.HasList (c.freqOf node + 1) := by
    have linked' := holding'.linked.hasList (holding.within inside)
    rwa [show promoted.freqOf node = c.freqOf node + 1 by rw [freqs, Function.update_self]]
      at linked'
  have minFreq : promoted.minFreq = c.minFreq := moved.minFreq
  refine ⟨removed, _, returned, raiseMinFreq_eq has, ?_⟩
  rw [show ((removed.setFreq node (c.freqOf node + 1)).addToFreqList node) = promoted from rfl,
    minFreq]
  split
  · rename_i emptied
    have raised : Kept promoted { promoted with minFreq := c.minFreq + 1 } :=
      ⟨rfl, rfl, rfl, rfl, fun _ => ⟨rfl, rfl⟩⟩
    refine ⟨holding'.of_kept raised (holding'.linked.congr rfl rfl fun _ _ => ⟨rfl, rfl⟩)
      holding'.positive, moved.toKept.trans raised, moved.curTotalNum, freqs,
      fun _ => Nat.le_add_left 1 _, fun agrees before => ?_, fun listed => ⟨?_, ?_⟩⟩
    · have after := least agrees before
      rwa [if_pos emptied] at after
    · exact moved.lists 1 listed.one
    · rw [emptied.1] at there
      exact there
  · rename_i stays
    refine ⟨holding', moved.toKept, moved.curTotalNum, freqs, fun start => minFreq ▸ start,
      fun agrees before => ?_, fun listed => ⟨moved.lists 1 listed.one, ?_⟩⟩
    · have after := least agrees before
      rwa [if_neg stays, ← minFreq] at after
    · rw [minFreq]
      exact moved.lists c.minFreq listed.minFreq

theorem Kept.agingDue (kept : Kept c c') (total : c'.curTotalNum = c.curTotalNum) :
    c'.AgingDue ↔ c.AgingDue := by
  unfold AgingDue
  rw [kept.maxAverageNum, total, kept.size]

theorem Holding.getInternal (holding : c.Holding members) (inside : node ∈ c.cached)
    (order : IterOrder (MapEntry Key)) :
    ∃ c', c.getInternal node order = .ok c' ∧ c'.Holding members ∧ Visited c node c' := by
  obtain ⟨removed, raised, returned, found, middle, promoted⟩ := holding.promote inside
  obtain ⟨c', counted, holding', accessed⟩ := middle.addFreqNum order
  have kept := promoted.kept
  have due := kept.agingDue promoted.total
  have same : ∀ other, raised.freqOf other =
      if other = node then c.freqOf other + 1 else c.freqOf other := by
    intro other
    rw [promoted.freqOf, Function.update_apply]
    split
    · rename_i here
      rw [here]
    · rfl
  have visited : ∀ other ∈ c.cached, c'.freqOf other = c.visitedFreq node other := by
    intro other within
    unfold visitedFreq
    by_cases aging : c.AgingDue
    · rw [if_pos aging, accessed.freqOf (due.mpr aging) other (kept.cached ▸ within),
        kept.maxAverageNum, same]
    · rw [if_neg aging, (accessed.quiet fun on => aging (due.mp on)).1, same]
  refine ⟨c', ?_, holding', kept.trans accessed.kept,
    fun agrees => agrees.of_kept (kept.trans accessed.kept) holding holding', ?_,
    kept.size ▸ accessed.average, visited,
    fun start => accessed.positive (promoted.positive start), fun agrees before finds => ?_,
    fun listed => accessed.listed (promoted.listed listed)⟩
  · unfold freqOf at found
    simp only [KLfuCache.getInternal, bind_ok_iff]
    exact ⟨removed, returned, raised, found, counted⟩
  · rw [accessed.total, promoted.total]
  · by_cases aging : c.AgingDue
    · obtain ⟨other, within, small⟩ := finds aging
      refine accessed.least (agrees.of_kept kept holding middle) (due.mpr aging)
        ⟨other, kept.cached ▸ within, ?_⟩
      unfold visitedFreq at small
      rwa [if_pos aging, ← same, ← kept.maxAverageNum] at small
    · obtain ⟨freqOf, minFreq⟩ := accessed.quiet fun on => aging (due.mp on)
      have least := promoted.least agrees before
      unfold MinFreqLeast at least ⊢
      rwa [freqOf, minFreq, accessed.kept.cached]

theorem Visited.consistent (visited : Visited c node c') (consistent : c.Consistent)
    (inside : node ∈ c.cached) (finds : c.AgingFinds node) : c'.Consistent := by
  have agrees := consistent.toAgrees
  refine ⟨visited.agrees agrees, visited.positive_minFreq consistent.positive_minFreq,
    fun _ => visited.least agrees (consistent.least ⟨node, inside⟩) finds, ?_, ?_⟩
  · rw [visited.kept.size, visited.kept.capacity]
    exact consistent.fits
  · rw [visited.kept.maxAverageNum]
    exact consistent.bound

theorem freqOf_setValue (c : KLfuCache Key Value) (node : NodePtr) (value : Value) :
    (c.setValue node value).freqOf = c.freqOf := by
  funext other
  by_cases here : other = node
  · subst here
    simp [freqOf, KLfuCache.setValue, setNode]
  · simp [freqOf, KLfuCache.setValue, setNode, here]

/-- `put` of a cached key first replaces the value. -/
theorem Holding.setValue (holding : c.Holding members) (node : NodePtr) (value : Value) :
    (c.setValue node value).Holding members := by
  have same : ∀ other, (c.setValue node value).joinedOf other = c.joinedOf other ∧
      ((c.setValue node value).heap other).key = (c.heap other).key := by
    intro other
    by_cases here : other = node
    · subst here
      simp [joinedOf, KLfuCache.setValue, setNode]
    · simp [joinedOf, KLfuCache.setValue, setNode, here]
  have freqs := c.freqOf_setValue node value
  refine ⟨holding.linked.congr rfl rfl fun other _ => ⟨congrFun freqs other, (same other).1⟩, ?_,
    holding.within, holding.known, ?_⟩
  · intro entry inside
    rw [(same entry.2).2]
    exact holding.keyed entry inside
  · rw [freqs]
    exact holding.positive

theorem Consistent.setValue (consistent : c.Consistent) (node : NodePtr) (value : Value) :
    (c.setValue node value).Consistent := by
  refine ⟨⟨consistent.toHolding.setValue node value⟩, consistent.positive_minFreq, ?_,
    consistent.fits, consistent.bound⟩
  unfold MinFreqLeast
  rw [freqOf_setValue]
  exact consistent.least

theorem agingFinds_setValue (c : KLfuCache Key Value) (node : NodePtr) (value : Value) :
    (c.setValue node value).AgingFinds node ↔ c.AgingFinds node := by
  unfold AgingFinds visitedFreq
  rw [freqOf_setValue]
  rfl

/-- A new cache, and a purged one. -/
theorem agrees_of_empty (nodeMap : c.nodeMap = ∅) (lists : c.freqToFreqList = ∅) : c.Agrees := by
  have nodes : c.nodes = [] := by
    unfold KLfuCache.nodes
    rw [nodeMap]
    rfl
  have none : ∀ node, node ∉ c.cached := fun node within => by
    have listed : node ∈ c.nodes := within
    simp [nodes] at listed
  have list : ∀ freq, c.listOf freq = [] := fun freq => by simp [listOf, lists]
  have entries : c.nodeMap.entries = [] := by rw [nodeMap]; rfl
  refine ⟨⟨⟨fun freq node => ?_, fun freq => ?_⟩, ?_⟩, ?_, fun _ within => within, ?_, ?_⟩
  · simp [list, none]
  · rw [list]
    exact List.Pairwise.nil
  · exact fun node within => absurd within (none node)
  · simp [entries]
  · exact fun node within => absurd within (none node)
  · exact fun node within => absurd within (none node)

theorem consistent_of_empty (nodeMap : c.nodeMap = ∅) (lists : c.freqToFreqList = ∅)
    (positive : 1 ≤ c.minFreq) (bound : 0 ≤ c.maxAverageNum) : c.Consistent := by
  refine ⟨agrees_of_empty nodeMap lists, positive, ?_, ?_, bound⟩
  · rintro ⟨node, within⟩
    simp [cached, nodes, nodeMap] at within
  · simp [size, nodeMap]

end KamaWebserver.KLfuCache
