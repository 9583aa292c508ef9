import KamaWebserver.LfuLists
import Mathlib.Order.Bounds.Basic

set_option autoImplicit false

namespace KamaWebserver.KLfuCache

variable {Key Value : Type}

/-- The nodes of `nodeMap_`. -/
def nodes (c : KLfuCache Key Value) : List NodePtr := c.nodeMap.entries.map (·.2)

def cached (c : KLfuCache Key Value) : Set NodePtr := {node | node ∈ c.nodes}

theorem size_eq (c : KLfuCache Key Value) : c.size = c.nodes.length := by
  unfold size nodes
  rw [List.length_map]

/-- The cached nodes are among the linked ones, each under its key, and no frequency is below
1. A linked node that is not cached is one whose key `kickOut` has taken for another's. -/
structure Holding (c : KLfuCache Key Value) (members : Set NodePtr) : Prop where
  linked : c.Linked members
  keyed : ∀ entry ∈ c.nodeMap.entries, (c.heap entry.2).key = entry.1
  within : c.cached ⊆ members
  known : ∀ node ∈ members, node < c.fresh
  positive : ∀ node ∈ members, 1 ≤ c.freqOf node

/-- Map and lists agree: the cached nodes are the linked ones. -/
structure Agrees (c : KLfuCache Key Value) : Prop extends Holding c c.cached

/-- The lists `kickOut` looks up exist. -/
structure Listed (c : KLfuCache Key Value) : Prop where
  one : c.HasList 1
  minFreq : c.HasList c.minFreq

/-- `minFreq_` is the least frequency of a cached node. -/
def MinFreqLeast (c : KLfuCache Key Value) : Prop :=
  IsLeast (Set.image c.freqOf c.cached) c.minFreq

/-- The next access raises the average above its maximum. -/
def AgingDue (c : KLfuCache Key Value) : Prop :=
  c.maxAverageNum < averageOf (c.curTotalNum + 1) c.size

instance (c : KLfuCache Key Value) : Decidable c.AgingDue :=
  inferInstanceAs (Decidable (c.maxAverageNum < averageOf (c.curTotalNum + 1) c.size))

theorem agedFreq_pos (maxAverageNum : Int) (freq : Nat) : 1 ≤ agedFreq maxAverageNum freq := by
  unfold agedFreq
  omega

/-- Half of a bound that is not negative comes off, down to 1. -/
theorem agedFreq_eq {maxAverageNum : Int} (nonneg : 0 ≤ maxAverageNum) (freq : Nat) :
    agedFreq maxAverageNum freq = max 1 (freq - maxAverageNum.toNat / 2) := by
  unfold agedFreq
  rw [Int.tdiv_eq_ediv_of_nonneg nonneg]
  omega

theorem averageOf_eq {total : Int} (nonneg : 0 ≤ total) (size : Nat) :
    averageOf total size = total / size := if_pos nonneg

theorem averageOf_zero (total : Int) : averageOf total 0 = 0 := by
  unfold averageOf
  split <;> simp

section Index

variable (lists : List ((_ : Nat) × FreqList)) (minFreq : Nat)

theorem leastIndex_le_start : leastIndex minFreq lists ≤ minFreq := by
  induction lists generalizing minFreq with
  | nil => exact Nat.le_refl _
  | cons pair pairs ih =>
      unfold leastIndex
      refine Nat.le_trans (ih _) ?_
      split
      · exact Nat.le_refl _
      · exact Nat.min_le_left _ _

theorem leastIndex_le {pair : (_ : Nat) × FreqList} (inside : pair ∈ lists)
    (full : pair.2 ≠ []) : leastIndex minFreq lists ≤ pair.1 := by
  induction lists generalizing minFreq with
  | nil => cases inside
  | cons first pairs ih =>
      unfold leastIndex
      rcases List.mem_cons.mp inside with same | later
      · rw [← same, if_neg (by simpa using full)]
        have start := leastIndex_le_start pairs (min minFreq pair.1)
        omega
      · exact ih _ later

theorem leastIndex_attained : leastIndex minFreq lists = minFreq ∨
    ∃ pair ∈ lists, pair.2 ≠ [] ∧ pair.1 = leastIndex minFreq lists := by
  induction lists generalizing minFreq with
  | nil => exact Or.inl rfl
  | cons first pairs ih =>
      unfold leastIndex
      rcases ih (if first.2.isEmpty then minFreq else min minFreq first.1)
        with start | ⟨pair, inside, full, index⟩
      · rw [start]
        by_cases empty : first.2.isEmpty
        · exact Or.inl (by rw [if_pos empty])
        · rw [if_neg empty]
          by_cases less : first.1 < minFreq
          · refine Or.inr ⟨first, List.mem_cons_self, by simpa using empty, ?_⟩
            omega
          · left
            omega
      · exact Or.inr ⟨pair, List.mem_cons_of_mem _ inside, full, index⟩

end Index

variable {c c' : KLfuCache Key Value} {members : Set NodePtr}

theorem Holding.entry_eq (holding : c.Holding members) {first second : MapEntry Key}
    (one : first ∈ c.nodeMap.entries) (two : second ∈ c.nodeMap.entries)
    (same : first.2 = second.2) : first = second := by
  refine c.nodeMap.nodupKeys.eq_of_fst_eq one two ?_
  rw [← holding.keyed first one, ← holding.keyed second two, same]

theorem Holding.nodes_nodup (holding : c.Holding members) : c.nodes.Nodup :=
  List.Nodup.map_on (fun _ one _ two same => holding.entry_eq one two same)
    c.nodeMap.nodupKeys.nodup

theorem Holding.fresh_ne (holding : c.Holding members) {node : NodePtr} (inside : node ∈ members) :
    node ≠ c.fresh := fun same => Nat.lt_irrefl _ (same ▸ holding.known node inside)

/-- Map and lists agree when no linked node has lost its entry. -/
theorem Agrees.of_holding (agrees : c.Agrees) (holding : c.Holding members) :
    members = c.cached := holding.linked.unique agrees.linked

theorem Kept.nodes (kept : Kept c c') : c'.nodes = c.nodes := by
  unfold KLfuCache.nodes
  rw [kept.nodeMap]

theorem Kept.cached (kept : Kept c c') : c'.cached = c.cached := by
  unfold KLfuCache.cached
  rw [kept.nodes]

theorem Kept.size (kept : Kept c c') : c'.size = c.size := by
  unfold KLfuCache.size
  rw [kept.nodeMap]

/-- Accesses keep the map, so only the lists and the frequencies have to be checked. -/
theorem Holding.of_kept (holding : c.Holding members) (kept : Kept c c')
    (linked : c'.Linked members) (positive : ∀ node ∈ members, 1 ≤ c'.freqOf node) :
    c'.Holding members := by
  refine ⟨linked, ?_, ?_, ?_, positive⟩
  · intro entry inside
    rw [kept.nodeMap] at inside
    rw [(kept.content entry.2).1]
    exact holding.keyed entry inside
  · rw [kept.cached]
    exact holding.within
  · rw [kept.fresh]
    exact holding.known

theorem Holding.setMinFreq (holding : c.Holding members) (minFreq : Nat) :
    ({ c with minFreq } : KLfuCache Key Value).Holding members :=
  holding.of_kept ⟨rfl, rfl, rfl, rfl, fun _ => ⟨rfl, rfl⟩⟩
    (holding.linked.congr rfl rfl fun _ _ => ⟨rfl, rfl⟩) holding.positive

/-- An access that keeps the map keeps it in agreement with the lists. -/
theorem Agrees.of_kept (agrees : c.Agrees) (kept : Kept c c') (holding : c.Holding members)
    (holding' : c'.Holding members) : c'.Agrees := by
  obtain rfl := agrees.of_holding holding
  rw [← kept.cached] at holding'
  exact ⟨holding'⟩

theorem Linked.updateMinFreq_pos (linked : c.Linked members)
    (positive : ∀ node ∈ members, 1 ≤ c.freqOf node) : 1 ≤ c.updateMinFreq.minFreq := by
  unfold KLfuCache.updateMinFreq
  dsimp only
  split
  · exact Nat.le_refl 1
  · rcases leastIndex_attained c.freqToFreqList.entries int8Max
      with start | ⟨pair, inside, full, index⟩
    · contradiction
    · obtain ⟨node, within, freq⟩ := linked.member_of_pair inside full
      have least := positive node within
      omega

/-- Below the sentinel `updateMinFreq` finds the least frequency. -/
theorem Linked.updateMinFreq_least (linked : c.Linked c.cached) {node : NodePtr}
    (inside : node ∈ c.cached) (small : c.freqOf node < int8Max) :
    c.updateMinFreq.MinFreqLeast := by
  have bound : ∀ other ∈ c.cached,
      leastIndex int8Max c.freqToFreqList.entries ≤ c.freqOf other := by
    intro other within
    obtain ⟨pair, present, full, index⟩ := linked.pair_of_member within
    rw [← index]
    exact leastIndex_le _ _ present full
  have below := bound node inside
  have chosen : c.updateMinFreq.minFreq = leastIndex int8Max c.freqToFreqList.entries := by
    unfold KLfuCache.updateMinFreq
    dsimp only
    rw [if_neg (by omega)]
  unfold MinFreqLeast
  rw [chosen]
  refine ⟨?_, ?_⟩
  · rcases leastIndex_attained c.freqToFreqList.entries int8Max
      with start | ⟨pair, present, full, index⟩
    · omega
    · obtain ⟨other, within, freq⟩ := linked.member_of_pair present full
      exact ⟨other, within, freq.trans index⟩
  · rintro freq ⟨other, within, rfl⟩
    exact bound other within

/-- `updateMinFreq` sets `minFreq_` to a frequency whose list exists, if that of 1 does. -/
theorem listed_updateMinFreq (one : c.HasList 1) : c.updateMinFreq.Listed := by
  refine ⟨one, ?_⟩
  have found : c.HasList c.updateMinFreq.minFreq := by
    unfold KLfuCache.updateMinFreq
    dsimp only
    split
    · exact one
    · rcases leastIndex_attained c.freqToFreqList.entries int8Max
        with start | ⟨pair, inside, full, index⟩
      · contradiction
      · rw [← index, hasList_iff, AList.mem_lookup_iff.mpr inside]
        rfl
  exact found

/-- What the aging pass does. -/
structure Aged (c c' : KLfuCache Key Value) : Prop where
  kept : Kept c c'
  total : c'.curTotalNum = c.curTotalNum
  average : c'.curAverageNum = c.curAverageNum
  freqOf : ∀ node ∈ c.cached, c'.freqOf node = agedFreq c.maxAverageNum (c.freqOf node)
  positive : 1 ≤ c'.minFreq
  least : c.Agrees → (∃ node ∈ c.cached, agedFreq c.maxAverageNum (c.freqOf node) < int8Max) →
    c'.MinFreqLeast
  lists : ∀ freq, c.HasList freq → c'.HasList freq
  listed : c.HasList 1 → c'.Listed

theorem Holding.handleOverMaxAverageNum (holding : c.Holding members)
    (order : IterOrder (MapEntry Key)) (present : c.nodeMap.entries ≠ []) :
    ∃ c', c.handleOverMaxAverageNum order = .ok c' ∧ c'.Holding members ∧ Aged c c' := by
  have met : ((order.arrange c.nodeMap.entries).map (·.2)).Perm c.nodes :=
    (order.perm _).map _
  obtain ⟨aged, loop, linked, moved, freqs⟩ := holding.linked.ageAll
    (met.nodup_iff.mpr holding.nodes_nodup)
    fun node inside => holding.within (met.mem_iff.mp inside)
  have freqOf : ∀ node ∈ c.cached,
      aged.freqOf node = agedFreq c.maxAverageNum (c.freqOf node) := by
    intro node inside
    rw [freqs, if_pos (met.mem_iff.mpr inside)]
  have positive : ∀ node ∈ members, 1 ≤ aged.freqOf node := by
    intro node inside
    rw [freqs]
    split
    · exact agedFreq_pos _ _
    · exact holding.positive node inside
  have kept : Kept c aged.updateMinFreq :=
    moved.toKept.trans ⟨rfl, rfl, rfl, rfl, fun _ => ⟨rfl, rfl⟩⟩
  refine ⟨aged.updateMinFreq, ?_, ?_, kept, moved.curTotalNum,
    moved.curAverageNum, freqOf, ?_, ?_, moved.lists, ?_⟩
  · simp only [KLfuCache.handleOverMaxAverageNum]
    rw [if_neg (by simpa using present), loop]
    rfl
  · exact holding.of_kept kept (linked.congr rfl rfl fun _ _ => ⟨rfl, rfl⟩) positive
  · exact linked.updateMinFreq_pos positive
  · rintro agrees ⟨node, inside, small⟩
    obtain rfl := agrees.of_holding holding
    have linked' : aged.Linked aged.cached := by rwa [moved.toKept.cached]
    refine linked'.updateMinFreq_least (by rwa [moved.toKept.cached]) ?_
    rwa [freqOf node inside]
  · exact fun one => listed_updateMinFreq (moved.lists 1 one)

theorem average_eq (c : KLfuCache Key Value) : c.average = averageOf c.curTotalNum c.size := by
  unfold average size
  cases entries : c.nodeMap.entries with
  | nil => simp [averageOf_zero]
  | cons entry entries => simp

/-- What `addFreqNum` does to the counters, the frequencies and `minFreq_`. -/
structure Accessed (c c' : KLfuCache Key Value) : Prop where
  kept : Kept c c'
  total : c'.curTotalNum = c.curTotalNum + 1
  average : c'.curAverageNum = averageOf c'.curTotalNum c.size
  quiet : ¬ c.AgingDue → c'.freqOf = c.freqOf ∧ c'.minFreq = c.minFreq
  freqOf : c.AgingDue → ∀ node ∈ c.cached,
    c'.freqOf node = agedFreq c.maxAverageNum (c.freqOf node)
  positive : 1 ≤ c.minFreq → 1 ≤ c'.minFreq
  least : c.Agrees → c.AgingDue →
    (∃ node ∈ c.cached, agedFreq c.maxAverageNum (c.freqOf node) < int8Max) → c'.MinFreqLeast
  lists : ∀ freq, c.HasList freq → c'.HasList freq
  listed : c.Listed → c'.Listed

theorem Holding.addFreqNum (holding : c.Holding members) (order : IterOrder (MapEntry Key)) :
    ∃ c', c.addFreqNum order = .ok c' ∧ c'.Holding members ∧ Accessed c c' := by
  let counted : KLfuCache Key Value := { c with curTotalNum := c.curTotalNum + 1 }
  let averaged : KLfuCache Key Value := { counted with curAverageNum := counted.average }
  have kept : Kept c averaged := ⟨rfl, rfl, rfl, rfl, fun _ => ⟨rfl, rfl⟩⟩
  have holding' : averaged.Holding members := holding.of_kept kept
    (holding.linked.congr rfl rfl fun _ _ => ⟨rfl, rfl⟩) holding.positive
  have due : averaged.maxAverageNum < averaged.curAverageNum ↔ c.AgingDue := by
    show c.maxAverageNum < counted.average ↔ c.AgingDue
    rw [average_eq]
    rfl
  by_cases aging : c.AgingDue
  · by_cases empty : c.nodeMap.entries = []
    · have none : ∀ node, node ∉ c.cached := by
        simp [cached, nodes, empty]
      refine ⟨averaged, ?_, holding', kept, rfl, average_eq counted,
        fun quiet => absurd aging quiet, fun _ node within => absurd within (none node),
        fun start => start, ?_, fun _ has => has, fun listed => ⟨listed.one, listed.minFreq⟩⟩
      · refine (if_pos (due.mpr aging)).trans ?_
        show (if c.nodeMap.entries.isEmpty then _ else _) = _
        rw [empty]
        rfl
      · rintro - - ⟨node, within, -⟩
        exact absurd within (none node)
    · obtain ⟨c', returned, done, aged⟩ := holding'.handleOverMaxAverageNum order empty
      have average : c'.curAverageNum = averageOf c'.curTotalNum c.size := by
        rw [aged.average, aged.total]
        exact average_eq counted
      exact ⟨c', (if_pos (due.mpr aging)).trans returned, done, kept.trans aged.kept, aged.total,
        average, fun quiet => absurd aging quiet, fun _ => aged.freqOf, fun _ => aged.positive,
        fun agrees _ => aged.least (agrees.of_kept kept holding holding'), aged.lists,
        fun listed => aged.listed listed.one⟩
  · exact ⟨averaged, if_neg fun exceeds => aging (due.mp exceeds), holding', kept, rfl,
      average_eq counted, fun _ => ⟨rfl, rfl⟩, fun due => absurd due aging, id,
      fun _ due => absurd due aging, fun _ has => has,
      fun listed => ⟨listed.one, listed.minFreq⟩⟩

end KamaWebserver.KLfuCache
