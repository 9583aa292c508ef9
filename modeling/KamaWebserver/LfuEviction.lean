import KamaWebserver.LfuCapacity
import Mathlib.Algebra.Order.BigOperators.Group.List
import Mathlib.Algebra.Order.Ring.Nat

set_option autoImplicit false

namespace KamaWebserver.KLfuCache

open Outcome Transition

variable {Key Value : Type}

/-- The sum of the cached frequencies. -/
def freqSum (c : KLfuCache Key Value) : Nat := (c.nodes.map c.freqOf).sum

/-- The counter covers the frequencies, and their average stays below the bound on it
plus one. -/
structure Moderate (c : KLfuCache Key Value) : Prop where
  covered : (c.freqSum : Int) ≤ c.curTotalNum
  light : c.nodes ≠ [] → c.freqSum < c.size * (c.maxAverageNum.toNat + 1)

section Sums

variable {nodes : List NodePtr} {freq : NodePtr → Nat} {maxAverageNum : Int}

/-- The aging pass lowers the sum of the frequencies unless it ends with all of them 1. -/
theorem sum_agedFreq (enough : 2 ≤ maxAverageNum) (positive : ∀ node ∈ nodes, 1 ≤ freq node) :
    (nodes.map fun node => agedFreq maxAverageNum (freq node)).sum < (nodes.map freq).sum ∨
      (nodes.map fun node => agedFreq maxAverageNum (freq node)).sum = nodes.length ∧
        (nodes.map freq).sum = nodes.length := by
  have aging := fun node => agedFreq_eq (by omega : 0 ≤ maxAverageNum) (freq node)
  by_cases high : ∃ node ∈ nodes, 1 < freq node
  · left
    refine List.sum_lt_sum _ _ (fun node inside => ?_) ?_
    · have lower := positive node inside
      rw [aging]
      omega
    · obtain ⟨node, inside, above⟩ := high
      refine ⟨node, inside, ?_⟩
      rw [aging]
      omega
  · right
    have ones : ∀ node ∈ nodes, freq node = 1 := by
      intro node inside
      have lower := positive node inside
      have upper : ¬ 1 < freq node := fun above => high ⟨node, inside, above⟩
      omega
    have aged : ∀ node ∈ nodes, agedFreq maxAverageNum (freq node) = 1 := by
      intro node inside
      rw [aging, ones node inside]
      omega
    rw [List.map_congr_left aged, List.map_congr_left ones]
    simp

theorem sum_promoted (nodup : nodes.Nodup) {node : NodePtr} (inside : node ∈ nodes) :
    (nodes.map fun other => if other = node then freq other + 1 else freq other).sum =
      (nodes.map freq).sum + 1 := by
  have perm := List.perm_cons_erase inside
  have rest : (nodes.erase node).map (fun other => if other = node then freq other + 1
      else freq other) = (nodes.erase node).map freq := by
    refine List.map_congr_left fun other remains => if_neg fun same => ?_
    rw [same, nodup.mem_erase_iff] at remains
    exact remains.1 rfl
  rw [(perm.map _).sum_eq, (perm.map freq).sum_eq, List.map_cons, List.map_cons, rest,
    List.sum_cons, List.sum_cons, if_pos rfl]
  omega

theorem exists_small_freq (present : nodes ≠ []) {bound : Nat}
    (sum : (nodes.map freq).sum ≤ nodes.length * bound) : ∃ node ∈ nodes, freq node ≤ bound := by
  refine List.exists_le_of_sum_le present freq (fun _ => bound) ?_
  simpa using sum

end Sums

variable {c c' : KLfuCache Key Value} {node : NodePtr}

/-- One `addFreqNum` restores the bounds after a frequency has grown by one. -/
theorem moderate_of_counted (freq : NodePtr → Nat) (enough : 2 ≤ c.maxAverageNum)
    (kept : Kept c c') (total : c'.curTotalNum = c.curTotalNum + 1)
    (freqs : ∀ node ∈ c.nodes, c'.freqOf node =
      if c.AgingDue then agedFreq c.maxAverageNum (freq node) else freq node)
    (positive : ∀ node ∈ c.nodes, 1 ≤ freq node)
    (covered : ((c.nodes.map freq).sum : Int) ≤ c.curTotalNum + 1)
    (light : (c.nodes.map freq).sum ≤ c.size * (c.maxAverageNum.toNat + 1)) : c'.Moderate := by
  have sum : c'.freqSum = (c.nodes.map fun node =>
      if c.AgingDue then agedFreq c.maxAverageNum (freq node) else freq node).sum := by
    unfold freqSum
    rw [kept.nodes, List.map_congr_left freqs]
  by_cases due : c.AgingDue
  · simp only [due, if_true] at sum
    have grown : c.nodes.length * 2 ≤ c.size * (c.maxAverageNum.toNat + 1) := by
      rw [size_eq]
      exact Nat.mul_le_mul_left _ (by omega)
    have result := sum_agedFreq enough positive
    rw [← sum] at result
    refine ⟨?_, fun present => ?_⟩
    · rw [total]
      omega
    · have length : 0 < c.nodes.length := by
        rw [kept.nodes] at present
        exact List.length_pos_of_ne_nil present
      rw [kept.size, kept.maxAverageNum]
      omega
  · replace sum : c'.freqSum = (c.nodes.map freq).sum := by simpa only [due, if_false] using sum
    refine ⟨by rw [total, sum]; exact covered, fun present => ?_⟩
    have length : 0 < c.size := by
      rw [size_eq, ← kept.nodes]
      exact List.length_pos_of_ne_nil present
    have nonneg : ((c.maxAverageNum.toNat : Nat) : Int) = c.maxAverageNum :=
      Int.toNat_of_nonneg (by omega)
    have average : (c.curTotalNum + 1) / (c.size : Int) < c.maxAverageNum + 1 := by
      unfold AgingDue at due
      rw [averageOf_eq (by omega)] at due
      omega
    have bound := (Int.ediv_lt_iff_lt_mul (by omega)).mp average
    rw [kept.size, kept.maxAverageNum, sum]
    have product : ((c.maxAverageNum + 1) * c.size) =
        ((c.size * (c.maxAverageNum.toNat + 1) : Nat) : Int) := by
      rw [Nat.mul_comm]
      push_cast
      rw [nonneg]
    omega

theorem Moderate.promoted_le (moderate : c.Moderate) (nodup : c.nodes.Nodup)
    (inside : node ∈ c.nodes) :
    (c.nodes.map fun other => if other = node then c.freqOf other + 1 else c.freqOf other).sum ≤
      c.nodes.length * (c.maxAverageNum.toNat + 1) := by
  have light := moderate.light (List.ne_nil_of_mem inside)
  rw [sum_promoted nodup inside, ← size_eq]
  exact light

/-- With this average some frequency is at most `maxAverageNum_ + 1` when the pass comes,
which half of `maxAverageNum_` brings below `INT8_MAX`. -/
theorem Moderate.agingFinds (moderate : c.Moderate) (agrees : c.Agrees)
    (enough : 2 ≤ c.maxAverageNum) (small : c.maxAverageNum ≤ 250) (inside : node ∈ c.nodes) :
    c.AgingFinds node := by
  intro due
  obtain ⟨other, within, low⟩ := exists_small_freq (List.ne_nil_of_mem inside)
    (moderate.promoted_le agrees.nodes_nodup inside)
  refine ⟨other, within, ?_⟩
  unfold visitedFreq int8Max
  rw [if_pos due, agedFreq_eq (by omega)]
  omega

theorem Visited.moderate (visited : Visited c node c') (moderate : c.Moderate)
    (agrees : c.Agrees) (enough : 2 ≤ c.maxAverageNum) (inside : node ∈ c.nodes) :
    c'.Moderate := by
  have nodup := agrees.nodes_nodup
  have covered := moderate.covered
  refine moderate_of_counted _ enough visited.kept visited.total visited.freqOf ?_ ?_ ?_
  · intro other within
    have lower := agrees.positive other within
    split <;> omega
  · rw [sum_promoted nodup inside]
    unfold freqSum at covered
    omega
  · rw [size_eq]
    exact moderate.promoted_le nodup inside

theorem freqSum_setValue (c : KLfuCache Key Value) (node : NodePtr) (value : Value) :
    (c.setValue node value).freqSum = c.freqSum := by
  unfold freqSum
  rw [freqOf_setValue]
  rfl

theorem Moderate.setValue (moderate : c.Moderate) (node : NodePtr) (value : Value) :
    (c.setValue node value).Moderate := by
  have sum := c.freqSum_setValue node value
  refine ⟨?_, ?_⟩
  · rw [sum]
    exact moderate.covered
  · rw [sum]
    exact moderate.light

variable [DecidableEq Key] {op : CacheOp Key Value}

theorem Removed.freqSum {victim : MapEntry Key} (removed : Removed c victim c') :
    c.freqSum = c.freqOf victim.2 + c'.freqSum := by
  unfold KLfuCache.freqSum freqOf
  rw [(removed.nodes.map _).sum_eq, List.map_cons, List.sum_cons, removed.heap]

/-- Making room for a new entry leaves the bounds one frequency to spare. -/
theorem MadeRoom.moderate {rest : KLfuCache Key Value} (made : MadeRoom c rest)
    (moderate : c.Moderate) (agrees : c.Agrees) :
    (rest.freqSum : Int) ≤ rest.curTotalNum ∧
      rest.freqSum + 1 ≤ (rest.size + 1) * (rest.maxAverageNum.toNat + 1) := by
  have covered := moderate.covered
  rcases made with ⟨-, rfl⟩ | ⟨-, victim, evicted⟩
  · refine ⟨covered, ?_⟩
    rw [Nat.succ_mul]
    by_cases present : rest.nodes = []
    · have none : rest.freqSum = 0 := by simp [freqSum, present]
      omega
    · have light := moderate.light present
      omega
  · have inside : victim.2 ∈ c.nodes := evicted.nodes.mem_iff.mpr List.mem_cons_self
    have light := moderate.light (List.ne_nil_of_mem inside)
    have lower := agrees.positive victim.2 inside
    have sum := evicted.freqSum
    rw [evicted.total, evicted.size, evicted.maxAverageNum]
    omega

theorem Inserted.freqSum {key : Key} {value : Value} (inserted : Inserted c key value c')
    (agrees : c.Agrees) : c'.freqSum = c.freqSum + 1 := by
  have older : c.nodes.map c'.freqOf = c.nodes.map c.freqOf := by
    refine List.map_congr_left fun node within => ?_
    rw [inserted.freqOf, Function.update_of_ne (agrees.fresh_ne within)]
  unfold KLfuCache.freqSum
  rw [inserted.nodes, List.map_cons, List.sum_cons, older, inserted.freqOf, Function.update_self]
  omega

theorem Stored.moderate {key : Key} {value : Value} {rest filled accessed : KLfuCache Key Value}
    (stored : Stored c key value rest filled accessed) (moderate : c.Moderate) (agrees : c.Agrees)
    (enough : 2 ≤ c.maxAverageNum) :
    ({ accessed with minFreq := min accessed.minFreq 1 } : KLfuCache Key Value).Moderate := by
  obtain ⟨room, agrees', inserted, agrees_filled, counted, -⟩ := stored
  obtain ⟨covered, light⟩ := room.moderate moderate agrees
  have sum := inserted.freqSum agrees'
  have size : filled.size = rest.size + 1 := by
    rw [size_eq, size_eq, inserted.nodes, List.length_cons]
  have moderate' : accessed.Moderate := by
    refine moderate_of_counted filled.freqOf ?_ counted.kept counted.total ?_
      agrees_filled.positive ?_ ?_
    · rw [inserted.maxAverageNum, room.kept.2.1]
      exact enough
    · intro node within
      by_cases due : filled.AgingDue
      · rw [if_pos due, counted.freqOf due node within]
      · rw [if_neg due, (counted.quiet due).1]
    · show ((filled.freqSum : Nat) : Int) ≤ _
      rw [sum, inserted.total]
      omega
    · show filled.freqSum ≤ _
      rw [sum, size, inserted.maxAverageNum]
      exact light
  exact ⟨moderate'.covered, moderate'.light⟩

/-- Under the bounds no call lets the sentinel be reached, and every call keeps them. -/
theorem Stepped.moderate (stepped : Stepped c op c') (consistent : c.Consistent)
    (moderate : c.Moderate) (enough : 2 ≤ c.maxAverageNum) (small : c.maxAverageNum ≤ 250) :
    c.KeepsBelowSentinel op ∧ c'.Moderate := by
  have agrees := consistent.toAgrees
  cases stepped with
  | missed absent =>
      simp only [KeepsBelowSentinel, target, absent]
      exact ⟨trivial, moderate⟩
  | read found visited =>
      simp only [KeepsBelowSentinel, target, found]
      have inside := cached_of_lookup found
      exact ⟨moderate.agingFinds agrees enough small inside,
        visited.moderate moderate agrees enough inside⟩
  | @updated key value order node _ found visited =>
      simp only [KeepsBelowSentinel, target, found]
      have inside := cached_of_lookup found
      exact ⟨moderate.agingFinds agrees enough small inside,
        visited.moderate (moderate.setValue node value)
          (consistent.setValue node value).toAgrees enough inside⟩
  | stored absent stored =>
      simp only [KeepsBelowSentinel, target, absent]
      exact ⟨trivial, stored.moderate moderate agrees enough⟩
  | purged =>
      refine ⟨trivial, ?_, fun present => absurd rfl present⟩
      have covered := moderate.covered
      show (0 : Int) ≤ c.curTotalNum
      omega

/-- The frequency lists of a cache that is not empty, and what `kickOut` does with them. -/
structure EvictsLeast [Inhabited Key] (c : KLfuCache Key Value) : Prop where
  listed : ∀ entry ∈ c.nodeMap.entries, 1 ≤ c.freqOf entry.2 ∧
    ∀ freq, (c.listOf freq).count entry.2 = if freq = c.freqOf entry.2 then 1 else 0
  only : ∀ freq, ∀ node ∈ c.listOf freq, ∃ entry ∈ c.nodeMap.entries, entry.2 = node
  least : IsLeast {freq | c.listOf freq ≠ []} c.minFreq
  evicts : ∃ victim ∈ c.nodeMap.entries, ∃ c', c.kickOut = .ok c' ∧
    c'.nodeMap = c.nodeMap.erase victim.1 ∧
    (∀ entry ∈ c.nodeMap.entries, c.freqOf victim.2 ≤ c.freqOf entry.2) ∧
    ∀ entry ∈ c.nodeMap.entries, c.freqOf entry.2 = c.freqOf victim.2 → entry ≠ victim →
      c.joinedOf victim.2 < c.joinedOf entry.2

variable [Inhabited Key]

theorem Consistent.evictsLeast (consistent : c.Consistent) (present : c.nodeMap.entries ≠ []) :
    c.EvictsLeast := by
  have agrees := consistent.toAgrees
  have inside : ∀ entry ∈ c.nodeMap.entries, entry.2 ∈ c.cached := fun entry within =>
    List.mem_map.mpr ⟨entry, within, rfl⟩
  obtain ⟨entry, first⟩ := List.exists_mem_of_ne_nil _ present
  have nonempty : c.cached.Nonempty := ⟨entry.2, inside entry first⟩
  refine ⟨fun entry within => ⟨?_, agrees.count (inside entry within)⟩, ?_, ?_, ?_⟩
  · exact agrees.positive entry.2 (inside entry within)
  · intro freq node listed
    exact List.mem_map.mp ((agrees.mem_listOf freq node).mp listed).1
  · have same : {freq | c.listOf freq ≠ []} = Set.image c.freqOf c.cached :=
      Set.ext agrees.nonempty_iff
    rw [same]
    exact consistent.least nonempty
  · obtain ⟨victim, c', returned, evicted⟩ := consistent.kickOut nonempty
    refine ⟨victim, evicted.inside, c', returned, evicted.nodeMap, ?_, ?_⟩
    · exact fun entry within => evicted.least entry.2 (inside entry within)
    · intro entry within equal different
      refine evicted.earliest entry.2 (inside entry within) equal fun same => different ?_
      exact agrees.entry_eq within evicted.inside same

/-- With a bound on the average from 2 to 250 every call succeeds and keeps the frequencies
moderate. -/
theorem Consistent.step_moderate (consistent : c.Consistent) (moderate : c.Moderate)
    (room : 1 ≤ c.capacity) (enough : 2 ≤ c.maxAverageNum) (small : c.maxAverageNum ≤ 250)
    (op : CacheOp Key Value) :
    ∃ c', c.step op = .ok c' ∧ c'.Consistent ∧ c'.Moderate ∧ c'.capacity = c.capacity ∧
      c'.maxAverageNum = c.maxAverageNum := by
  obtain ⟨c', taken, stepped⟩ := consistent.step room op
  obtain ⟨below, moderate'⟩ := stepped.moderate consistent moderate enough small
  obtain ⟨consistent', capacity, kept⟩ := stepped.consistent consistent below
  exact ⟨c', taken, consistent', moderate', capacity, kept⟩

/-- With 2 to 250 as the bound on the average, every call succeeds and every cache that
is not empty evicts a least frequent entry, the one that reached its frequency first. -/
theorem evictsLeast_of_moderate_bound [Inhabited Value] (capacity maxAverageNum : Nat)
    (room : 1 ≤ capacity) (enough : 2 ≤ maxAverageNum) (small : maxAverageNum ≤ 250)
    (ops : List (CacheOp Key Value)) :
    Always step (fun c => c.nodeMap.entries ≠ [] → c.EvictsLeast) (fun _ => False)
      (create capacity maxAverageNum) ops := by
  refine always_of_guarded
    (fun c => c.Consistent ∧ c.Moderate ∧ c.capacity = capacity ∧
      c.maxAverageNum = (maxAverageNum : Int))
    ?_ ?_
    ⟨consistent_of_empty rfl rfl (by decide : 1 ≤ int8Max) (Int.natCast_nonneg _), ?_, rfl, rfl⟩
    (guarded_true _ ops)
  · rintro c ⟨consistent, -⟩
    exact consistent.evictsLeast
  · rintro c op ⟨consistent, moderate, rfl, same⟩ -
    obtain ⟨c', taken, consistent', moderate', capacity, kept⟩ :=
      consistent.step_moderate moderate room (by omega) (by omega) op
    rw [taken]
    exact ⟨consistent', moderate', capacity, kept.trans same⟩
  · exact ⟨Int.le_refl 0, fun present => absurd rfl present⟩

/-- Three entries, one of them read, put into a cache of two with the default bound. -/
theorem evictsLeast_default_bound :
    Always step (fun c => c.nodeMap.entries ≠ [] → c.EvictsLeast) (fun _ => False)
        (create 2 10 : KLfuCache String Nat)
        [.put "a" 1 inOrder, .get "a" inOrder, .put "b" 2 inOrder, .put "c" 3 inOrder] ∧
      ∃ c, run step (create 2 10 : KLfuCache String Nat)
          [.put "a" 1 inOrder, .get "a" inOrder, .put "b" 2 inOrder, .put "c" 3 inOrder] = .ok c ∧
        c.nodeMap.entries.map Sigma.fst = ["c", "a"] ∧ c.EvictsLeast := by
  have always := evictsLeast_of_moderate_bound 2 10 (by decide) (by decide) (by decide)
    ([.put "a" 1 inOrder, .get "a" inOrder, .put "b" 2 inOrder, .put "c" 3 inOrder] :
      List (CacheOp String Nat))
  obtain ⟨c, reached, keys⟩ := (map_ok_iff _ _ _).mp
    (show (run step (create 2 10 : KLfuCache String Nat)
        [.put "a" 1 inOrder, .get "a" inOrder, .put "b" 2 inOrder, .put "c" 3 inOrder]).map
      (fun c => c.nodeMap.entries.map Sigma.fst) = .ok ["c", "a"] by decide +kernel)
  refine ⟨always, c, reached, keys, always.target reached ?_⟩
  intro empty
  rw [empty] at keys
  cases keys

end KamaWebserver.KLfuCache
