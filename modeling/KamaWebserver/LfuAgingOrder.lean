import KamaWebserver.LfuEviction

set_option autoImplicit false

namespace KamaWebserver.KLfuCache

open Outcome Transition

variable {Key Value : Type}

/-- `kickOut` takes the first node sooner: its frequency is smaller, or the same and it is
nearer to the head of their list. -/
def EvictedBefore (c : KLfuCache Key Value) (first second : NodePtr) : Prop :=
  c.freqOf first < c.freqOf second ∨
    c.freqOf first = c.freqOf second ∧ [first, second].Sublist (c.listOf (c.freqOf first))

instance (c : KLfuCache Key Value) (first second : NodePtr) :
    Decidable (c.EvictedBefore first second) :=
  inferInstanceAs (Decidable (_ ∨ _ ∧ _))

variable {c c' : KLfuCache Key Value} {members : Set NodePtr} {node : NodePtr}

/-- Two items keep their order among the items selected. -/
theorem pair_sublist_filter {α : Type*} (keep : α → Bool) {first second : α} (one : keep first)
    (two : keep second) (list : List α) :
    [first, second].Sublist (list.filter keep) ↔ [first, second].Sublist list := by
  constructor
  · exact fun kept => kept.trans List.filter_sublist
  · intro placed
    have kept := placed.filter keep
    simpa [one, two] using kept

/-- A node that is aged leaves its list and goes to the end of the one of its new frequency. -/
theorem Linked.listOf_age (linked : c.Linked members) (inside : node ∈ members)
    (aged : c.age node = .ok c') (freq : Nat) :
    c'.listOf freq = (c.listOf freq).filter (· != node) ++
      if agedFreq c.maxAverageNum (c.freqOf node) = freq then [node] else [] := by
  have left : Function.update c.listOf (c.freqOf node) ((c.listOf (c.freqOf node)).erase node) =
      fun other => (c.listOf other).filter (· != node) := by
    funext other
    by_cases same : other = c.freqOf node
    · rw [same, Function.update_self, (linked.filed.nodup _).erase_eq_filter]
    · rw [Function.update_of_ne same, eq_comm, List.filter_eq_self]
      intro item listed
      have placed := ((linked.filed.mem other item).mp listed).2
      rw [bne_iff_ne]
      rintro rfl
      exact same placed.symm
  simp only [KLfuCache.age, (linked.hasList inside).removeFromFreqList] at aged
  obtain rfl : ((c.setList (c.freqOf node) ((c.listOf (c.freqOf node)).erase node)).setFreq node
      (agedFreq c.maxAverageNum (c.freqOf node))).addToFreqList node = c' := Except.ok.inj aged
  rw [listOf_addToFreqList, freqOf_setFreq, Function.update_self, listOf_setFreq, listOf_setList,
    left]
  by_cases same : freq = agedFreq c.maxAverageNum (c.freqOf node)
  · rw [same, Function.update_self, if_pos rfl]
  · rw [Function.update_of_ne same, if_neg fun equal => same equal.symm, List.append_nil]

/-- The loop of the aging pass takes the nodes it meets out of their lists and links them again
in the order in which it meets them. -/
theorem Linked.listOf_ageAll {nodes : List NodePtr} (linked : c.Linked members)
    (distinct : nodes.Nodup) (inside : ∀ node ∈ nodes, node ∈ members)
    (aged : c.ageAll nodes = .ok c') (freq : Nat) :
    c'.listOf freq = (c.listOf freq).filter (· ∉ nodes) ++
      nodes.filter fun node => agedFreq c.maxAverageNum (c.freqOf node) = freq := by
  induction nodes generalizing c with
  | nil =>
      obtain rfl := Except.ok.inj aged
      simp
  | cons first rest ih =>
      obtain ⟨fresh, distinct⟩ := List.nodup_cons.mp distinct
      obtain ⟨c₁, once, linked₁, kept₁, freqs₁⟩ := linked.age (inside first List.mem_cons_self)
      simp only [KLfuCache.ageAll, once] at aged
      have later := ih linked₁ distinct
        (fun node later => inside node (List.mem_cons_of_mem _ later))
        aged
      have others : ∀ node ∈ rest, agedFreq c₁.maxAverageNum (c₁.freqOf node) =
          agedFreq c.maxAverageNum (c.freqOf node) := by
        intro node later
        rw [kept₁.maxAverageNum, freqs₁, Function.update_of_ne]
        rintro rfl
        exact fresh later
      have same : (rest.filter fun node => agedFreq c₁.maxAverageNum (c₁.freqOf node) = freq) =
          rest.filter fun node => agedFreq c.maxAverageNum (c.freqOf node) = freq :=
        List.filter_congr fun node later => by rw [others node later]
      rw [later, same, linked.listOf_age (inside first List.mem_cons_self) once, List.filter_append,
        List.filter_filter, List.filter_cons]
      have split : ((c.listOf freq).filter fun node => (node ∉ rest) && (node != first)) =
          (c.listOf freq).filter (· ∉ first :: rest) := by
        refine List.filter_congr fun node _ => ?_
        rw [Bool.eq_iff_iff]
        simp [and_comm]
      rw [split, List.append_assoc]
      by_cases here : agedFreq c.maxAverageNum (c.freqOf first) = freq
      · simp [here, fresh]
      · simp [here]

/-- The nodes of `nodeMap_` in the order in which the iteration meets them. -/
def met (c : KLfuCache Key Value) (order : IterOrder (MapEntry Key)) : List NodePtr :=
  (order.arrange c.nodeMap.entries).map (·.2)

theorem met_perm (c : KLfuCache Key Value) (order : IterOrder (MapEntry Key)) :
    (c.met order).Perm c.nodes := (order.perm _).map _

/-- After the aging pass each list holds the nodes of its frequency as the iteration met them. -/
theorem Agrees.listOf_aged (agrees : c.Agrees) {order : IterOrder (MapEntry Key)}
    (aged : c.handleOverMaxAverageNum order = .ok c') (freq : Nat) :
    c'.listOf freq =
      (c.met order).filter fun node => agedFreq c.maxAverageNum (c.freqOf node) = freq := by
  have perm := c.met_perm order
  have all : ∀ node ∈ c.met order, node ∈ c.cached := fun node inside => perm.mem_iff.mp inside
  have distinct : (c.met order).Nodup := perm.nodup_iff.mpr agrees.nodes_nodup
  have gone : (c.listOf freq).filter (· ∉ c.met order) = [] := by
    rw [List.filter_eq_nil_iff]
    intro node listed
    have inside := ((agrees.mem_listOf freq node).mp listed).1
    simpa using perm.mem_iff.mpr inside
  by_cases empty : c.nodeMap.entries = []
  · have none : c.met order = [] := by
      have length := perm.length_eq
      rw [nodes, empty] at length
      exact List.length_eq_zero_iff.mp length
    simp only [KLfuCache.handleOverMaxAverageNum, empty, List.isEmpty_nil, ↓reduceIte] at aged
    obtain rfl := Except.ok.inj aged
    rw [none] at gone ⊢
    simpa using gone
  · simp only [KLfuCache.handleOverMaxAverageNum, List.isEmpty_iff, empty, ↓reduceIte] at aged
    obtain ⟨looped, loop, made⟩ := (bind_ok_iff _ _ _).mp aged
    obtain rfl := Except.ok.inj made
    have lists := agrees.linked.listOf_ageAll distinct all loop freq
    rw [gone, List.nil_append] at lists
    exact lists

/-- The pass leaves the frequencies of the cached nodes halved, as far down as 1. -/
theorem Agrees.handleOverMaxAverageNum (agrees : c.Agrees) (order : IterOrder (MapEntry Key)) :
    ∃ c', c.handleOverMaxAverageNum order = .ok c' ∧
      ∀ node ∈ c.nodes, c'.freqOf node = agedFreq c.maxAverageNum (c.freqOf node) := by
  by_cases empty : c.nodeMap.entries = []
  · refine ⟨c, by simp [KLfuCache.handleOverMaxAverageNum, empty], fun node inside => ?_⟩
    simp [nodes, empty] at inside
  · obtain ⟨c', returned, -, aged⟩ := agrees.toHolding.handleOverMaxAverageNum order empty
    exact ⟨c', returned, aged.freqOf⟩

/-- Nodes whose aged frequencies differ are evicted in the order of these, others as the
iteration met them. -/
theorem Agrees.evictedBefore_aged (agrees : c.Agrees) {order : IterOrder (MapEntry Key)}
    (aged : c.handleOverMaxAverageNum order = .ok c') {first second : NodePtr}
    (one : c'.freqOf first = agedFreq c.maxAverageNum (c.freqOf first))
    (two : c'.freqOf second = agedFreq c.maxAverageNum (c.freqOf second)) :
    c'.EvictedBefore first second ↔ c'.freqOf first < c'.freqOf second ∨
      c'.freqOf first = c'.freqOf second ∧ [first, second].Sublist (c.met order) := by
  unfold EvictedBefore
  refine or_congr Iff.rfl (and_congr_right fun same => ?_)
  rw [agrees.listOf_aged aged]
  refine pair_sublist_filter _ ?_ ?_ _
  · rw [one]
    exact decide_eq_true rfl
  · rw [same, two]
    exact decide_eq_true rfl

/-- Of two entries the one that was to be evicted first still is after the aging pass exactly
when the pass leaves its frequency the smaller one or the iteration meets it first. -/
theorem eviction_order_aged (agrees : c.Agrees) (enough : 2 ≤ c.maxAverageNum)
    (order : IterOrder (MapEntry Key)) :
    ∃ c', c.handleOverMaxAverageNum order = .ok c' ∧
      ∀ first ∈ c.nodes, ∀ second ∈ c.nodes, c.EvictedBefore first second →
        (c'.EvictedBefore first second ↔
          (c.freqOf first < c.freqOf second ∧ 1 + c.maxAverageNum / 2 < c.freqOf second) ∨
            [first, second].Sublist (c.met order)) := by
  obtain ⟨c', aged, freqs⟩ := agrees.handleOverMaxAverageNum order
  refine ⟨c', aged, fun first one second two before => ?_⟩
  rw [agrees.evictedBefore_aged aged (freqs first one) (freqs second two), freqs first one,
    freqs second two, agedFreq_eq (by omega), agedFreq_eq (by omega)]
  have ordered : c.freqOf first ≤ c.freqOf second := by
    rcases before with less | ⟨same, -⟩
    · exact Nat.le_of_lt less
    · exact Nat.le_of_eq same
  constructor
  · rintro (less | ⟨-, placed⟩)
    · exact Or.inl (by omega)
    · exact Or.inr placed
  · rintro (⟨less, above⟩ | placed)
    · exact Or.inl (by omega)
    · rcases Nat.lt_or_eq_of_le (show max 1 (c.freqOf first - c.maxAverageNum.toNat / 2) ≤
          max 1 (c.freqOf second - c.maxAverageNum.toNat / 2) by omega) with less | same
      · exact Or.inl less
      · exact Or.inr ⟨same, placed⟩

/-- What runs with a bound from 2 to 250 lead to agrees. -/
theorem agrees_of_run [DecidableEq Key] [Inhabited Key] [Inhabited Value]
    (capacity maxAverageNum : Nat)
    (room : 1 ≤ capacity) (enough : 2 ≤ maxAverageNum) (small : maxAverageNum ≤ 250)
    {ops : List (CacheOp Key Value)}
    (reached : run step (create capacity maxAverageNum) ops = .ok c) :
    c.Agrees := by
  refine (Reachable.preserves
    (fun c : KLfuCache Key Value => c.Consistent ∧ c.Moderate ∧ c.capacity = capacity ∧
      c.maxAverageNum = (maxAverageNum : Int)) ?_ ⟨?_, ?_, rfl, rfl⟩ ⟨ops, reached⟩).1.toAgrees
  · rintro c op next ⟨consistent, moderate, rfl, same⟩ taken
    obtain ⟨c', returned, consistent', moderate', capacity, kept⟩ :=
      consistent.step_moderate moderate room (by omega) (by omega) op
    obtain rfl := Except.ok.inj (returned.symm.trans taken)
    exact ⟨consistent', moderate', capacity, kept.trans same⟩
  · exact consistent_of_empty rfl rfl (by decide : 1 ≤ int8Max) (Int.natCast_nonneg _)
  · exact ⟨Int.le_refl 0, fun present => absurd rfl present⟩

/-- The second entry stays above 1, so the first one stays in front of it. -/
theorem eviction_order_aged_apart :
    ∃ c c' : KLfuCache String Nat, run step (create 3 4) [.put "a" 1 inOrder, .put "b" 2 inOrder,
        .get "b" inOrder, .get "b" inOrder, .get "b" inOrder] = .ok c ∧
      c.EvictedBefore 0 1 ∧ c.handleOverMaxAverageNum inOrder = .ok c' ∧
      (c'.EvictedBefore 0 1 ↔ (c.freqOf 0 < c.freqOf 1 ∧ 1 + c.maxAverageNum / 2 < c.freqOf 1) ∨
        [0, 1].Sublist (c.met inOrder)) := by
  obtain ⟨c, reached, facts⟩ := (map_ok_iff _ _ _).mp
    (show (run step (create 3 4 : KLfuCache String Nat) [.put "a" 1 inOrder, .put "b" 2 inOrder,
      .get "b" inOrder, .get "b" inOrder, .get "b" inOrder]).map (fun c =>
        (c.maxAverageNum, c.nodes, decide (c.EvictedBefore 0 1))) = .ok (4, [1, 0], true) by
      decide +kernel)
  simp only [Prod.mk.injEq, decide_eq_true_eq] at facts
  obtain ⟨bound, nodes, before⟩ := facts
  obtain ⟨c', aged, order⟩ := eviction_order_aged
    (agrees_of_run 3 4 (by decide) (by decide) (by decide) reached) (by omega) inOrder
  exact ⟨c, c', reached, before, aged,
    order 0 (by simp [nodes]) 1 (by simp [nodes]) before⟩

/-- Two entries whose frequencies become 1 change places when the iteration meets them the
other way round. -/
theorem merged_entries_swap :
    ∃ c c' : KLfuCache String Nat, run step (create 3 2) [.put "a" 1 inOrder, .put "b" 2 inOrder,
        .get "b" inOrder] = .ok c ∧ c.Agrees ∧ c.maxAverageNum = 2 ∧
      c.handleOverMaxAverageNum inOrder = .ok c' ∧ c.nodes = [1, 0] ∧
      c.EvictedBefore 0 1 ∧ ¬ c'.EvictedBefore 0 1 := by
  obtain ⟨c', returned, after⟩ := (map_ok_iff _ _ _).mp
    (show (run step (create 3 2 : KLfuCache String Nat) [.put "a" 1 inOrder, .put "b" 2 inOrder,
      .get "b" inOrder] >>= fun c => c.handleOverMaxAverageNum inOrder).map (fun c' =>
        decide (c'.EvictedBefore 0 1)) = .ok false by decide +kernel)
  obtain ⟨c, reached, aged⟩ := (bind_ok_iff _ _ _).mp returned
  obtain ⟨other, same, facts⟩ := (map_ok_iff _ _ _).mp
    (show (run step (create 3 2 : KLfuCache String Nat) [.put "a" 1 inOrder, .put "b" 2 inOrder,
      .get "b" inOrder]).map (fun c =>
        (c.maxAverageNum, c.nodes, decide (c.EvictedBefore 0 1))) = .ok (2, [1, 0], true) by
      decide +kernel)
  obtain rfl := Except.ok.inj (same.symm.trans reached)
  simp only [Prod.mk.injEq, decide_eq_true_eq] at facts
  exact ⟨_, c', reached, agrees_of_run 3 2 (by decide) (by decide) (by decide) reached, facts.1,
    aged, facts.2.1, facts.2.2, of_decide_eq_false after⟩

end KamaWebserver.KLfuCache
