import KamaWebserver.LfuCache
import KamaWebserver.Library.Filing
import KamaWebserver.Library.Outcome
import Mathlib.Order.BooleanAlgebra.Set

set_option autoImplicit false

namespace KamaWebserver.KLfuCache

open Filing Outcome

variable {Key Value : Type}

/-- `freqToFreqList_` as a function: a missing list holds no node. -/
def listOf (c : KLfuCache Key Value) (freq : Nat) : FreqList :=
  (c.freqToFreqList.lookup freq).getD []

def freqOf (c : KLfuCache Key Value) (node : NodePtr) : Nat := (c.heap node).freq

def joinedOf (c : KLfuCache Key Value) (node : NodePtr) : Nat := (c.heap node).joined

/-- Exactly these nodes are linked, each into the list of its frequency, in the order
in which they were added. -/
structure Linked (c : KLfuCache Key Value) (members : Set NodePtr) : Prop where
  filed : Filed members c.freqOf c.joinedOf c.listOf
  past : ∀ node ∈ members, c.joinedOf node < c.clock

/-- What no access to a cached key changes. -/
structure Kept (c c' : KLfuCache Key Value) : Prop where
  capacity : c'.capacity = c.capacity
  maxAverageNum : c'.maxAverageNum = c.maxAverageNum
  nodeMap : c'.nodeMap = c.nodeMap
  fresh : c'.fresh = c.fresh
  content : ∀ node, (c'.heap node).key = (c.heap node).key ∧
    (c'.heap node).value = (c.heap node).value

/-- A list exists, though it may be empty. -/
def HasList (c : KLfuCache Key Value) (freq : Nat) : Prop := c.listAt freq = .ok (c.listOf freq)

/-- Moving nodes between the lists leaves the counters alone, too, and takes no list away. -/
structure Relinked (c c' : KLfuCache Key Value) : Prop extends Kept c c' where
  minFreq : c'.minFreq = c.minFreq
  curTotalNum : c'.curTotalNum = c.curTotalNum
  curAverageNum : c'.curAverageNum = c.curAverageNum
  lists : ∀ freq, c.HasList freq → c'.HasList freq

theorem Kept.refl (c : KLfuCache Key Value) : Kept c c :=
  ⟨rfl, rfl, rfl, rfl, fun _ => ⟨rfl, rfl⟩⟩

theorem Kept.trans {first second third : KLfuCache Key Value}
    (one : Kept first second) (two : Kept second third) : Kept first third where
  capacity := two.capacity.trans one.capacity
  maxAverageNum := two.maxAverageNum.trans one.maxAverageNum
  nodeMap := two.nodeMap.trans one.nodeMap
  fresh := two.fresh.trans one.fresh
  content node := ⟨(two.content node).1.trans (one.content node).1,
    (two.content node).2.trans (one.content node).2⟩

theorem Relinked.refl (c : KLfuCache Key Value) : Relinked c c :=
  ⟨Kept.refl c, rfl, rfl, rfl, fun _ has => has⟩

theorem Relinked.trans {first second third : KLfuCache Key Value}
    (one : Relinked first second) (two : Relinked second third) : Relinked first third :=
  ⟨one.toKept.trans two.toKept, two.minFreq.trans one.minFreq,
    two.curTotalNum.trans one.curTotalNum, two.curAverageNum.trans one.curAverageNum,
    fun freq has => two.lists freq (one.lists freq has)⟩

section Access

variable (c : KLfuCache Key Value)

theorem listOf_setList (freq : Nat) (list : FreqList) :
    (c.setList freq list).listOf = Function.update c.listOf freq list := by
  funext other
  by_cases same : other = freq
  · subst same
    simp [listOf, setList]
  · simp [listOf, setList, same]

theorem freqOf_setFreq (node : NodePtr) (freq : Nat) :
    (c.setFreq node freq).freqOf = Function.update c.freqOf node freq := by
  funext other
  by_cases same : other = node
  · subst same
    simp [freqOf, setFreq, setNode]
  · simp [freqOf, setFreq, setNode, same]

theorem listOf_setFreq (node : NodePtr) (freq : Nat) : (c.setFreq node freq).listOf = c.listOf :=
  rfl

theorem listOf_addToFreqList (node : NodePtr) :
    (c.addToFreqList node).listOf =
      Function.update c.listOf (c.freqOf node) (c.listOf (c.freqOf node) ++ [node]) :=
  listOf_setList c _ _

theorem freqOf_addToFreqList (node : NodePtr) : (c.addToFreqList node).freqOf = c.freqOf := by
  funext other
  by_cases same : other = node
  · subst same
    simp [freqOf, addToFreqList, setNode, setList]
  · simp [freqOf, addToFreqList, setNode, setList, same]

theorem joinedOf_addToFreqList (node : NodePtr) :
    (c.addToFreqList node).joinedOf = Function.update c.joinedOf node c.clock := by
  funext other
  by_cases same : other = node
  · subst same
    simp [joinedOf, addToFreqList, setNode, setList]
  · simp [joinedOf, addToFreqList, setNode, setList, same]

theorem hasList_iff (freq : Nat) : c.HasList freq ↔ (c.freqToFreqList.lookup freq).isSome := by
  unfold HasList listAt listOf
  cases c.freqToFreqList.lookup freq <;> simp

theorem hasList_setList_self (freq : Nat) (list : FreqList) :
    (c.setList freq list).HasList freq := by
  rw [hasList_iff]
  simp [setList]

theorem HasList.setList {c : KLfuCache Key Value} {freq : Nat} (has : c.HasList freq)
    (other : Nat) (list : FreqList) : (c.setList other list).HasList freq := by
  by_cases same : freq = other
  · subst same
    exact c.hasList_setList_self freq list
  · rw [hasList_iff] at has ⊢
    simpa only [KLfuCache.setList, AList.lookup_insert_ne same] using has

theorem relinked_setList (freq : Nat) (list : FreqList) : Relinked c (c.setList freq list) :=
  ⟨⟨rfl, rfl, rfl, rfl, fun _ => ⟨rfl, rfl⟩⟩, rfl, rfl, rfl, fun _ has => has.setList _ _⟩

theorem relinked_setFreq (node : NodePtr) (freq : Nat) : Relinked c (c.setFreq node freq) := by
  refine ⟨⟨rfl, rfl, rfl, rfl, fun other => ?_⟩, rfl, rfl, rfl, fun _ has => has⟩
  by_cases same : other = node
  · subst same
    simp [setFreq, setNode]
  · simp [setFreq, setNode, same]

theorem relinked_addToFreqList (node : NodePtr) : Relinked c (c.addToFreqList node) := by
  refine ⟨⟨rfl, rfl, rfl, rfl, fun other => ?_⟩, rfl, rfl, rfl, fun _ has => has.setList _ _⟩
  by_cases same : other = node
  · subst same
    simp [addToFreqList, setNode, setList]
  · simp [addToFreqList, setNode, setList, same]

end Access

variable {c c' : KLfuCache Key Value} {members : Set NodePtr} {node : NodePtr}

/-- Only the lists, the clock and what the members carry matter. -/
theorem Linked.congr (linked : c.Linked members) (lists : c'.listOf = c.listOf)
    (clock : c'.clock = c.clock)
    (same : ∀ node ∈ members, c'.freqOf node = c.freqOf node ∧ c'.joinedOf node = c.joinedOf node) :
    c'.Linked members := by
  refine ⟨?_, fun node inside => ?_⟩
  · rw [lists]
    exact linked.filed.congr same
  · have before := linked.past node inside
    have stamp := (same node inside).2
    omega

/-- The lists say which nodes are linked. -/
theorem Linked.unique (linked : c.Linked members) {others : Set NodePtr}
    (also : c.Linked others) : members = others := by
  ext node
  have one := linked.filed.mem (c.freqOf node) node
  have two := also.filed.mem (c.freqOf node) node
  simp only [and_true] at one two
  rw [← one, two]

theorem hasList_of_mem {freq : Nat} (listed : node ∈ c.listOf freq) : c.HasList freq := by
  rw [hasList_iff]
  unfold listOf at listed
  cases found : c.freqToFreqList.lookup freq with
  | some list => rfl
  | none => simp [found] at listed

theorem Linked.hasList (linked : c.Linked members) (inside : node ∈ members) :
    c.HasList (c.freqOf node) :=
  hasList_of_mem ((linked.filed.mem _ node).mpr ⟨inside, rfl⟩)

/-- A list that is not empty has the frequency of some member as its index. -/
theorem Linked.member_of_pair (linked : c.Linked members) {pair : (_ : Nat) × FreqList}
    (inside : pair ∈ c.freqToFreqList.entries) (full : pair.2 ≠ []) :
    ∃ node ∈ members, c.freqOf node = pair.1 := by
  obtain ⟨node, listed⟩ := List.exists_mem_of_ne_nil _ full
  have found := AList.mem_lookup_iff.mpr inside
  rw [Option.mem_def] at found
  have here : node ∈ c.listOf pair.1 := by
    rw [listOf, found]
    exact listed
  exact ⟨node, (linked.filed.mem _ node).mp here⟩

theorem Linked.pair_of_member (linked : c.Linked members) (inside : node ∈ members) :
    ∃ pair ∈ c.freqToFreqList.entries, pair.2 ≠ [] ∧ pair.1 = c.freqOf node := by
  have listed := (linked.filed.mem _ node).mpr ⟨inside, rfl⟩
  unfold listOf at listed
  cases found : c.freqToFreqList.lookup (c.freqOf node) with
  | none => simp [found] at listed
  | some list =>
      rw [found] at listed
      exact ⟨_, AList.mem_lookup_iff.mp found, List.ne_nil_of_mem listed, rfl⟩

/-- A node leaves the list of its frequency, if that list exists. -/
theorem HasList.removeFromFreqList (has : c.HasList (c.freqOf node)) :
    c.removeFromFreqList node =
      .ok (c.setList (c.freqOf node) ((c.listOf (c.freqOf node)).erase node)) := by
  unfold HasList freqOf at has
  simp only [KLfuCache.removeFromFreqList, has]
  rfl

theorem Linked.removeFromFreqList (linked : c.Linked members) (inside : node ∈ members) :
    ∃ c', c.removeFromFreqList node = .ok c' ∧ c'.Linked (members \ {node}) ∧
      Relinked c c' ∧ c'.heap = c.heap ∧ c'.HasList (c.freqOf node) := by
  refine ⟨c.setList (c.freqOf node) ((c.listOf (c.freqOf node)).erase node), ?_, ⟨?_, ?_⟩,
    relinked_setList c _ _, rfl, c.hasList_setList_self _ _⟩
  · exact (linked.hasList inside).removeFromFreqList
  · rw [listOf_setList]
    exact linked.filed.remove node
  · intro other remains
    exact linked.past other remains.1

theorem Linked.setFreq (linked : c.Linked members) (outside : node ∉ members) (freq : Nat) :
    (c.setFreq node freq).Linked members := by
  refine linked.congr rfl rfl fun other inside => ?_
  have different : other ≠ node := fun same => outside (same ▸ inside)
  simp [freqOf, joinedOf, KLfuCache.setFreq, setNode, different]

theorem Linked.addToFreqList (linked : c.Linked members) (outside : node ∉ members) :
    (c.addToFreqList node).Linked (insert node members) := by
  have different : ∀ other ∈ members, other ≠ node := fun other inside same =>
    outside (same ▸ inside)
  have restamped : Filed members c.freqOf (Function.update c.joinedOf node c.clock) c.listOf :=
    linked.filed.congr fun other inside => ⟨rfl, Function.update_of_ne (different other inside) _ _⟩
  refine ⟨?_, ?_⟩
  · rw [freqOf_addToFreqList, joinedOf_addToFreqList, listOf_addToFreqList]
    refine restamped.add outside fun other inside => ?_
    rw [Function.update_self, Function.update_of_ne (different other inside)]
    exact linked.past other inside
  · intro other inside
    have clock : (c.addToFreqList node).clock = c.clock + 1 := rfl
    rw [joinedOf_addToFreqList, clock]
    rcases Set.mem_insert_iff.mp inside with same | inside
    · rw [same, Function.update_self]
      omega
    · have before := linked.past other inside
      rw [Function.update_of_ne (different other inside)]
      omega

/-- A linked node taken out of its list and added under another frequency. -/
theorem Linked.move (linked : c.Linked members) (inside : node ∈ members) :
    ∃ removed, c.removeFromFreqList node = .ok removed ∧ removed.heap = c.heap ∧
      Relinked c removed ∧ ∀ freq,
        ((removed.setFreq node freq).addToFreqList node).Linked members ∧
        Relinked c ((removed.setFreq node freq).addToFreqList node) ∧
        ((removed.setFreq node freq).addToFreqList node).freqOf =
          Function.update c.freqOf node freq ∧
        ((removed.setFreq node freq).addToFreqList node).HasList (c.freqOf node) := by
  obtain ⟨removed, returned, rest, kept, heap, has⟩ := linked.removeFromFreqList inside
  have outside : node ∉ members \ {node} := fun within => within.2 rfl
  refine ⟨removed, returned, heap, kept, fun freq => ⟨?_, ?_, ?_, has.setList _ _⟩⟩
  · have added := (rest.setFreq outside freq).addToFreqList outside
    rwa [Set.insert_sdiff_self_of_mem inside] at added
  · exact (kept.trans (relinked_setFreq _ _ _)).trans (relinked_addToFreqList _ _)
  · have same : removed.freqOf = c.freqOf := by
      funext other
      unfold freqOf
      rw [heap]
    rw [freqOf_addToFreqList, freqOf_setFreq, same]

theorem Linked.age (linked : c.Linked members) (inside : node ∈ members) :
    ∃ c', c.age node = .ok c' ∧ c'.Linked members ∧ Relinked c c' ∧
      c'.freqOf = Function.update c.freqOf node (agedFreq c.maxAverageNum (c.freqOf node)) := by
  obtain ⟨removed, returned, heap, kept, moved⟩ := linked.move inside
  obtain ⟨relinked, kept', freqs, _⟩ := moved (agedFreq c.maxAverageNum (c.freqOf node))
  refine ⟨_, ?_, relinked, kept', freqs⟩
  have same : agedFreq removed.maxAverageNum (removed.heap node).freq =
      agedFreq c.maxAverageNum (c.freqOf node) := by
    rw [heap, kept.maxAverageNum]
    rfl
  simp only [KLfuCache.age, returned]
  rw [← same]
  rfl

/-- The loop of the aging pass: every node it meets is aged once. -/
theorem Linked.ageAll {nodes : List NodePtr} (linked : c.Linked members)
    (distinct : nodes.Nodup) (inside : ∀ node ∈ nodes, node ∈ members) :
    ∃ c', c.ageAll nodes = .ok c' ∧ c'.Linked members ∧ Relinked c c' ∧
      ∀ node, c'.freqOf node =
        if node ∈ nodes then agedFreq c.maxAverageNum (c.freqOf node) else c.freqOf node := by
  induction nodes generalizing c with
  | nil => exact ⟨c, rfl, linked, Relinked.refl c, fun node => by simp⟩
  | cons first rest ih =>
      obtain ⟨fresh, distinct⟩ := List.nodup_cons.mp distinct
      obtain ⟨c₁, aged, linked₁, kept₁, freqs₁⟩ := linked.age (inside first List.mem_cons_self)
      obtain ⟨c₂, loop, linked₂, kept₂, freqs₂⟩ :=
        ih linked₁ distinct fun node later => inside node (List.mem_cons_of_mem _ later)
      refine ⟨c₂, ?_, linked₂, kept₁.trans kept₂, fun node => ?_⟩
      · simp only [KLfuCache.ageAll, aged]
        exact loop
      · rw [freqs₂, freqs₁, kept₁.maxAverageNum]
        by_cases same : node = first
        · subst same
          simp [fresh]
        · simp [same]

end KamaWebserver.KLfuCache
