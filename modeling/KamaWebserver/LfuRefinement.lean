import KamaWebserver.LfuLinks

set_option autoImplicit false

namespace KamaWebserver

open DoublyLinked Outcome

namespace KLfuCache

/-- The least index depends on which lists are not empty. -/
theorem leastIndex_mono {minFreq : Nat} {lists others : List ((_ : Nat) × FreqList)}
    (more : ∀ pair ∈ others, pair.2 ≠ [] → ∃ same ∈ lists, same.2 ≠ [] ∧ same.1 = pair.1) :
    leastIndex minFreq lists ≤ leastIndex minFreq others := by
  rcases leastIndex_attained others minFreq with start | ⟨pair, inside, full, index⟩
  · rw [start]
    exact leastIndex_le_start lists minFreq
  · obtain ⟨same, there, full', equal⟩ := more pair inside full
    rw [← index, ← equal]
    exact leastIndex_le lists minFreq there full'

end KLfuCache

namespace LinkedCache

variable {Key Value : Type}

/-- The loop of `updateMinFreq` as it goes over lists without their nodes. -/
theorem leastIndex_eq (links : Links NodeRef) (minFreq : Nat)
    (lists : List ((_ : Nat) × FreqListObject)) :
    leastIndex links minFreq lists = KLfuCache.leastIndex minFreq (lists.map fun pair =>
      ⟨pair.1, if pair.2.isEmpty links then [] else [0]⟩) := by
  induction lists generalizing minFreq with
  | nil => rfl
  | cons pair lists ih =>
      rw [leastIndex, List.map_cons, KLfuCache.leastIndex, ih]
      cases pair.2.isEmpty links <;> rfl

/-- A list object is spelled out by the links between its dummies. -/
def Represents (s : LinkedCache Key Value) (object : FreqListObject) (list : FreqList) : Prop :=
  s.links.Spans object.head (list.map .node) object.tail

theorem Represents.isEmpty {s : LinkedCache Key Value} {object : FreqListObject}
    {list : FreqList} (represents : s.Represents object list) :
    object.isEmpty s.links = list.isEmpty := by
  have empty := represents.isEmpty_iff
  unfold FreqListObject.isEmpty
  rw [List.map_eq_nil_iff] at empty
  cases list with
  | nil => simp [empty]
  | cons first rest => simp [empty]

/-- The nodes met from the head to the tail of a list are those met from the tail to the head,
the other way round. -/
structure Threaded (s : LinkedCache Key Value) (object : FreqListObject) (nodes : List NodePtr) :
    Prop where
  forward : Links.walk s.links.next object.tail (nodes.length + 1) object.head =
    some (nodes.map .node)
  backward : Links.walk s.links.pre object.head (nodes.length + 1) object.tail =
    some (nodes.map .node).reverse
  distinct : nodes.Nodup

/-- Each list is threaded through nodes of its frequency, and each entry of the map is a node
with that key in the list of its frequency. -/
structure WellLinked (s : LinkedCache Key Value) : Prop where
  lists : ∀ freq object, s.freqToFreqList.lookup freq = some object → ∃ nodes,
    s.Threaded object nodes ∧ ∀ node ∈ nodes, (s.heap (.node node)).freq = freq
  entries : ∀ entry ∈ s.nodeMap.entries, (s.heap (.node entry.2)).key = entry.1 ∧
    ∃ object nodes, s.freqToFreqList.lookup (s.heap (.node entry.2)).freq = some object ∧
      s.Threaded object nodes ∧ entry.2 ∈ nodes

theorem Represents.threaded {s : LinkedCache Key Value} {object : FreqListObject}
    {list : FreqList} (represents : s.Represents object list) :
    s.Threaded object list := by
  refine ⟨represents.walk_next (by simp), represents.walk_pre (by simp), ?_⟩
  have distinct := represents.distinct
  simp only [List.nodup_cons, List.nodup_append] at distinct
  exact distinct.2.1.of_map _

/-- The lists are made one after another, each for its frequency and with dummies of its own. -/
structure Numbered [Inhabited Key] [Inhabited Value] (s : LinkedCache Key Value) : Prop where
  object : ∀ freq object, s.freqToFreqList.lookup freq = some object →
    ∃ list < s.freshList, object = ⟨freq, .head list, .tail list⟩ ∧
      s.heap (.tail list) = ⟨1, default, default⟩
  apart : ∀ first second object other, s.freqToFreqList.lookup first = some object →
    s.freqToFreqList.lookup second = some other →
    object.head = other.head ∨ object.tail = other.tail → first = second

/-- The cache with its links holds what the cache of lists holds: the same counters, entries
and node contents, and chains of links that spell its lists. -/
structure Refines [Inhabited Key] [Inhabited Value] (s : LinkedCache Key Value)
    (c : KLfuCache Key Value) : Prop where
  capacity : s.capacity = c.capacity
  minFreq : s.minFreq = c.minFreq
  maxAverageNum : s.maxAverageNum = c.maxAverageNum
  curAverageNum : s.curAverageNum = c.curAverageNum
  curTotalNum : s.curTotalNum = c.curTotalNum
  nodeMap : s.nodeMap = c.nodeMap
  fresh : s.fresh = c.fresh
  content : ∀ node,
    s.heap (.node node) = ⟨(c.heap node).freq, (c.heap node).key, (c.heap node).value⟩
  lists : ∀ freq, Option.Rel s.Represents (s.freqToFreqList.lookup freq)
    (c.freqToFreqList.lookup freq)
  numbered : s.Numbered

variable [Inhabited Key] [Inhabited Value] {s : LinkedCache Key Value} {c c' : KLfuCache Key Value}
  {members : Set NodePtr} {node : NodePtr} {freq : Nat} {object : FreqListObject}

theorem Refines.freqOf (refines : s.Refines c) (node : NodePtr) :
    (s.heap (.node node)).freq = c.freqOf node := by
  rw [refines.content]
  rfl

theorem Refines.size (refines : s.Refines c) : s.size = c.size := by
  unfold LinkedCache.size KLfuCache.size
  rw [refines.nodeMap]

/-- Both caches have a list of a frequency, or neither. -/
theorem Refines.found (refines : s.Refines c) {list : FreqList}
    (found : c.freqToFreqList.lookup freq = some list) :
    ∃ object, s.freqToFreqList.lookup freq = some object ∧ s.Represents object list := by
  have related := refines.lists freq
  rw [found] at related
  cases there : s.freqToFreqList.lookup freq with
  | none =>
      rw [there] at related
      cases related
  | some object =>
      rw [there] at related
      cases related with
      | some represents => exact ⟨object, rfl, represents⟩

/-- A list object spells the list of its frequency. -/
theorem Refines.spells (refines : s.Refines c)
    (found : s.freqToFreqList.lookup freq = some object) :
    c.freqToFreqList.lookup freq = some (c.listOf freq) ∧
      s.Represents object (c.listOf freq) := by
  have related := refines.lists freq
  rw [found] at related
  unfold KLfuCache.listOf
  cases held : c.freqToFreqList.lookup freq with
  | none =>
      rw [held] at related
      cases related
  | some list =>
      rw [held] at related
      cases related with
      | some represents => exact ⟨rfl, represents⟩

theorem Refines.missing (refines : s.Refines c) (missing : c.freqToFreqList.lookup freq = none) :
    s.freqToFreqList.lookup freq = none := by
  have related := refines.lists freq
  rw [missing] at related
  cases there : s.freqToFreqList.lookup freq with
  | none => rfl
  | some object =>
      rw [there] at related
      cases related

/-- Both tables find a list, or neither does. -/
theorem Refines.listAt (refines : s.Refines c) {list : FreqList}
    (found : c.listAt freq = .ok list) :
    ∃ object, s.listAt freq = .ok object ∧ s.freqToFreqList.lookup freq = some object ∧
      list = c.listOf freq ∧ s.Represents object list := by
  unfold KLfuCache.listAt at found
  cases there : c.freqToFreqList.lookup freq with
  | none => simp [there] at found
  | some held =>
      rw [there] at found
      cases found
      obtain ⟨object, here, represents⟩ := refines.found there
      refine ⟨object, by rw [LinkedCache.listAt, here], here, ?_, represents⟩
      rw [KLfuCache.listOf, there]
      rfl

/-- What is written into the nodes does not concern the lists. -/
theorem Refines.setNode (refines : s.Refines c) (node : NodePtr) (content : Node Key Value) :
    (s.setNode (.node node) ⟨content.freq, content.key, content.value⟩).Refines
      (c.setNode node content) := by
  refine ⟨refines.capacity, refines.minFreq, refines.maxAverageNum, refines.curAverageNum,
    refines.curTotalNum, refines.nodeMap, refines.fresh, fun other => ?_, refines.lists, ?_⟩
  · simp only [LinkedCache.setNode, KLfuCache.setNode]
    by_cases same : other = node
    · rw [same, Function.update_self, Function.update_self]
    · rw [Function.update_of_ne same, Function.update_of_ne (by simpa using same),
        refines.content]
  · refine ⟨fun freq object found => ?_, refines.numbered.apart⟩
    obtain ⟨list, older, made, dummy⟩ := refines.numbered.object freq object found
    refine ⟨list, older, made, ?_⟩
    simpa [LinkedCache.setNode] using dummy

theorem Refines.setFreq (refines : s.Refines c) (node : NodePtr) (freq : Nat) :
    (s.setFreq (.node node) freq).Refines (c.setFreq node freq) := by
  have written := refines.setNode node { c.heap node with freq }
  unfold LinkedCache.setFreq
  rw [refines.content]
  exact written

theorem Refines.setValue (refines : s.Refines c) (node : NodePtr) (value : Value) :
    (s.setValue (.node node) value).Refines (c.setValue node value) := by
  have written := refines.setNode node { c.heap node with value }
  unfold LinkedCache.setValue
  rw [refines.content]
  exact written

/-- New links for one list leave the others as they are, if no node of theirs is touched. -/
theorem Refines.relink (refines : s.Refines c) (found : s.freqToFreqList.lookup freq = some object)
    {links : Links NodeRef} {list : FreqList} (touched : List NodePtr)
    (spans : links.Spans object.head (list.map .node) object.tail)
    (elsewhere : ∀ item ∉ object.head :: (touched.map .node ++ [object.tail]),
      links.pre item = s.links.pre item ∧ links.next item = s.links.next item)
    (others : ∀ other ≠ freq, ∀ node ∈ c.listOf other, node ∉ touched) :
    ({ s with links := links } : LinkedCache Key Value).Refines (c.setList freq list) := by
  refine ⟨refines.capacity, refines.minFreq, refines.maxAverageNum, refines.curAverageNum,
    refines.curTotalNum, refines.nodeMap, refines.fresh, refines.content, fun other => ?_,
    ⟨refines.numbered.object, refines.numbered.apart⟩⟩
  by_cases same : other = freq
  · subst same
    simp only [KLfuCache.setList, AList.lookup_insert, found]
    exact .some spans
  · simp only [KLfuCache.setList, AList.lookup_insert_ne same]
    cases there : c.freqToFreqList.lookup other with
    | none =>
        rw [refines.missing there]
        exact .none
    | some held =>
        obtain ⟨object', here, represents⟩ := refines.found there
        rw [here]
        refine .some (represents.congr fun item inside => elsewhere item ?_)
        have listed : c.listOf other = held := by
          rw [KLfuCache.listOf, there]
          rfl
        obtain ⟨one, -, rfl, -⟩ := refines.numbered.object _ _ found
        obtain ⟨two, -, rfl, -⟩ := refines.numbered.object _ _ here
        have different : two ≠ one := fun equal => same
          (refines.numbered.apart _ _ _ _ here found (.inl (congrArg NodeRef.head equal)))
        simp only [List.mem_cons, List.mem_append, List.mem_map, List.not_mem_nil, or_false]
          at inside ⊢
        rcases inside with rfl | ⟨member, within, rfl⟩ | rfl
        · simp [different]
        · have apart := others other same member (by rwa [listed])
          simpa using apart
        · simp [different]

/-- A linked node leaves its chain as it leaves its list. -/
theorem Refines.removeFromFreqList (refines : s.Refines c) (linked : c.Linked members)
    (inside : node ∈ members) (removed : c.removeFromFreqList node = .ok c') :
    ∃ s', s.removeFromFreqList (.node node) = .ok s' ∧ s'.Refines c' := by
  obtain ⟨list, held, returned⟩ := (bind_ok_iff _ _ _).mp removed
  cases returned
  obtain ⟨object, here, found, rfl, represents⟩ := refines.listAt held
  have listed : node ∈ c.listOf (c.freqOf node) := (linked.filed.mem _ node).mpr ⟨inside, rfl⟩
  obtain ⟨spans, -, elsewhere⟩ := represents.unlink (List.mem_map_of_mem (f := NodeRef.node) listed)
  rw [← List.map_erase fun _ _ same => NodeRef.node.inj same] at spans
  refine ⟨{ s with links := s.links.unlink (.node node) }, ?_,
    refines.relink found _ spans elsewhere
    fun other different member there within => different ?_⟩
  · unfold LinkedCache.removeFromFreqList
    rw [refines.freqOf]
    exact (bind_ok_iff _ _ _).mpr ⟨object, here, rfl⟩
  · rw [← ((linked.filed.mem _ member).mp there).2]
    exact ((linked.filed.mem _ member).mp within).2

/-- A new list gets the next number. -/
theorem Numbered.createList (numbered : s.Numbered)
    (missing : s.freqToFreqList.lookup freq = none) : (s.createList freq).Numbered := by
  have held : ∀ other object, (s.createList freq).freqToFreqList.lookup other = some object →
      (other = freq ∧ object = ⟨freq, .head s.freshList, .tail s.freshList⟩) ∨
        s.freqToFreqList.lookup other = some object ∧
          ∃ list < s.freshList, object = ⟨other, .head list, .tail list⟩ ∧
            s.heap (.tail list) = ⟨1, default, default⟩ := by
    intro other object found
    by_cases same : other = freq
    · subst same
      simp only [LinkedCache.createList, AList.lookup_insert, Option.some.injEq] at found
      exact .inl ⟨rfl, found.symm⟩
    · simp only [LinkedCache.createList, AList.lookup_insert_ne same] at found
      exact .inr ⟨found, numbered.object other object found⟩
  refine ⟨fun other object found => ?_, fun first second object other found also same => ?_⟩
  · rcases held other object found with ⟨rfl, rfl⟩ | ⟨-, list, older, rfl, dummy⟩
    · refine ⟨s.freshList, Nat.lt_succ_self _, rfl, ?_⟩
      simp [LinkedCache.createList]
    · refine ⟨list, Nat.lt_succ_of_lt older, rfl, ?_⟩
      have different : list ≠ s.freshList := Nat.ne_of_lt older
      simpa [LinkedCache.createList, different] using dummy
  · rcases held first object found with ⟨rfl, rfl⟩ | ⟨before, one, early, rfl, -⟩
    · rcases held second other also with ⟨rfl, -⟩ | ⟨-, two, late, rfl, -⟩
      · rfl
      · simp at same
        omega
    · rcases held second other also with ⟨rfl, rfl⟩ | ⟨behind, -⟩
      · simp at same
        omega
      · exact numbered.apart first second _ other before behind same

/-- A list is created where there is none. -/
theorem Refines.createList (refines : s.Refines c)
    (missing : c.freqToFreqList.lookup freq = none) :
    (s.createList freq).Refines (c.setList freq []) := by
  refine ⟨refines.capacity, refines.minFreq, refines.maxAverageNum, refines.curAverageNum,
    refines.curTotalNum, refines.nodeMap, refines.fresh, fun node => ?_, fun other => ?_,
    refines.numbered.createList (refines.missing missing)⟩
  · simp only [LinkedCache.createList, KLfuCache.setList]
    simpa using refines.content node
  · by_cases same : other = freq
    · subst same
      simp only [LinkedCache.createList, KLfuCache.setList, AList.lookup_insert]
      exact .some (Links.createEmpty_spans s.links (by simp))
    · simp only [LinkedCache.createList, KLfuCache.setList, AList.lookup_insert_ne same]
      cases there : c.freqToFreqList.lookup other with
      | none =>
          rw [refines.missing there]
          exact .none
      | some held =>
          obtain ⟨object, here, represents⟩ := refines.found there
          rw [here]
          obtain ⟨list, before, rfl, -⟩ := refines.numbered.object other object here
          refine .some (represents.congr fun item inside =>
            Links.createEmpty_elsewhere s.links ?_ ?_)
          · rintro rfl
            simp at inside
            omega
          · rintro rfl
            simp at inside
            omega

/-- A node that is in no list goes to the end of one. -/
theorem Refines.addNode (refines : s.Refines c) {list : FreqList}
    (found : c.freqToFreqList.lookup freq = some list) (linked : c.Linked members)
    (outside : node ∉ members) :
    ∃ object links, s.listAt freq = .ok object ∧ object.addNode s.links (.node node) = .ok links ∧
      ({ s with links := links } : LinkedCache Key Value).Refines
        (c.setList freq (list ++ [node])) := by
  obtain ⟨object, here, represents⟩ := refines.found found
  obtain ⟨number, -, rfl, -⟩ := refines.numbered.object freq object here
  have listed : c.listOf freq = list := by
    rw [KLfuCache.listOf, found]
    rfl
  have free : ∀ other, node ∉ c.listOf other := fun other there =>
    outside ((linked.filed.mem _ node).mp there).1
  have apart : NodeRef.node node ∉ .head number :: (list.map .node ++ [.tail number]) := by
    have absent := free freq
    rw [listed] at absent
    simpa using absent
  obtain ⟨links, made, spans, elsewhere⟩ := represents.insertBefore apart
  refine ⟨_, links, by rw [LinkedCache.listAt, here], by rw [FreqListObject.addNode, made],
    refines.relink here (list ++ [node]) (by simpa using spans) (fun item away => ?_)
    fun other different member there => ?_⟩
  · exact elsewhere item (by simpa using away)
  · rw [List.mem_append, List.mem_singleton, not_or]
    refine ⟨fun within => different ?_, fun same => free other (same ▸ there)⟩
    rw [← listed] at within
    rw [← ((linked.filed.mem _ member).mp there).2]
    exact ((linked.filed.mem _ member).mp within).2

theorem Refines.addToFreqList (refines : s.Refines c) (linked : c.Linked members)
    (outside : node ∉ members) :
    ∃ s', s.addToFreqList (.node node) = .ok s' ∧ s'.Refines (c.addToFreqList node) := by
  -- The times at which nodes join and the clock are not in the source.
  have stamped : ∀ {s' : LinkedCache Key Value}, s'.Refines
        (c.setList (c.freqOf node) (c.listOf (c.freqOf node) ++ [node])) →
      s'.Refines (c.addToFreqList node) := by
    intro s' placed
    have content : ∀ other, (c.addToFreqList node).freqOf other = c.freqOf other ∧
        ((c.addToFreqList node).heap other).key = (c.heap other).key ∧
        ((c.addToFreqList node).heap other).value = (c.heap other).value := fun other =>
      ⟨by rw [KLfuCache.freqOf_addToFreqList],
        (KLfuCache.relinked_addToFreqList c node).content other⟩
    refine ⟨placed.capacity, placed.minFreq, placed.maxAverageNum, placed.curAverageNum,
      placed.curTotalNum, placed.nodeMap, placed.fresh, fun other => ?_, placed.lists,
      placed.numbered⟩
    obtain ⟨freq, key, value⟩ := content other
    rw [placed.content, key, value, show ((c.addToFreqList node).heap other).freq = _ from freq]
    rfl
  cases there : c.freqToFreqList.lookup (c.freqOf node) with
  | some list =>
      obtain ⟨object, links, held, made, placed⟩ := refines.addNode there linked outside
      have listed : c.listOf (c.freqOf node) = list := by
        rw [KLfuCache.listOf, there]
        rfl
      refine ⟨_, ?_, stamped (by rwa [listed])⟩
      obtain ⟨object', here, -⟩ := refines.found there
      have has : s.hasList (c.freqOf node) = true := by rw [LinkedCache.hasList, here]; rfl
      simp only [LinkedCache.addToFreqList, refines.freqOf, has, ↓reduceIte, bind_ok_iff]
      exact ⟨object, held, links, made, rfl⟩
  | none =>
      have created := refines.createList there
      have none : c.listOf (c.freqOf node) = [] := by
        rw [KLfuCache.listOf, there]
        rfl
      have linked' : (c.setList (c.freqOf node) []).Linked members := by
        refine linked.congr ?_ rfl fun _ _ => ⟨rfl, rfl⟩
        rw [KLfuCache.listOf_setList, ← none, Function.update_eq_self]
      obtain ⟨object, links, held, made, placed⟩ :=
        created.addNode (c.freqToFreqList.lookup_insert) linked' outside
      have twice : (c.setList (c.freqOf node) []).setList (c.freqOf node) ([] ++ [node]) =
          c.setList (c.freqOf node) (c.listOf (c.freqOf node) ++ [node]) := by
        rw [none]
        simp only [KLfuCache.setList, AList.insert_insert]
      have lacks : s.hasList (c.freqOf node) = false := by
        rw [LinkedCache.hasList, refines.missing there]
        rfl
      rw [twice] at placed
      refine ⟨_, ?_, stamped placed⟩
      simp only [LinkedCache.addToFreqList, refines.freqOf, lacks, Bool.false_eq_true, ↓reduceIte,
        bind_ok_iff]
      exact ⟨object, held, links, made, rfl⟩

theorem Refines.age (refines : s.Refines c) (linked : c.Linked members) (inside : node ∈ members)
    (aged : c.age node = .ok c') : ∃ s', s.age (.node node) = .ok s' ∧ s'.Refines c' := by
  obtain ⟨removed, taken, linked', kept, heap, -⟩ := linked.removeFromFreqList inside
  obtain ⟨middle, left, refines'⟩ := refines.removeFromFreqList linked inside taken
  have outside : node ∉ members \ {node} := fun within => within.2 rfl
  let freq := KLfuCache.agedFreq removed.maxAverageNum (removed.heap node).freq
  obtain ⟨s', added, refined⟩ := (refines'.setFreq node freq).addToFreqList
    (linked'.setFreq outside freq) outside
  obtain ⟨removed', taken', returned⟩ := (bind_ok_iff _ _ _).mp aged
  cases taken.symm.trans taken'
  cases returned
  refine ⟨s', (bind_ok_iff _ _ _).mpr ⟨middle, left, ?_⟩, refined⟩
  rw [refines'.maxAverageNum, refines'.freqOf]
  exact added

/-- The loop of the aging pass, node by node. -/
theorem Refines.ageAll {nodes : List NodePtr} (refines : s.Refines c) (linked : c.Linked members)
    (inside : ∀ node ∈ nodes, node ∈ members) (aged : c.ageAll nodes = .ok c') :
    ∃ s', s.ageAll nodes = .ok s' ∧ s'.Refines c' ∧ c'.Linked members := by
  induction nodes generalizing s c with
  | nil =>
      cases aged
      exact ⟨s, rfl, refines, linked⟩
  | cons node nodes ih =>
      obtain ⟨first, rest⟩ := List.forall_mem_cons.mp inside
      obtain ⟨next, once, linked', -⟩ := linked.age first
      obtain ⟨next', taken, again⟩ := (bind_ok_iff _ _ _).mp aged
      cases once.symm.trans taken
      obtain ⟨middle, first_aged, refines'⟩ := refines.age linked first once
      obtain ⟨s', loop, refined, linked''⟩ := ih refines' linked' rest again
      exact ⟨s', (bind_ok_iff _ _ _).mpr ⟨middle, first_aged, loop⟩, refined, linked''⟩

/-- The order of the entries does not matter. -/
theorem Refines.leastIndex (refines : s.Refines c) (minFreq : Nat) :
    LinkedCache.leastIndex s.links minFreq s.freqToFreqList.entries =
      KLfuCache.leastIndex minFreq c.freqToFreqList.entries := by
  rw [leastIndex_eq]
  refine Nat.le_antisymm (KLfuCache.leastIndex_mono fun pair inside full => ?_)
    (KLfuCache.leastIndex_mono fun pair inside full => ?_)
  · have held := Option.mem_def.mp (AList.mem_lookup_iff.mpr inside)
    obtain ⟨object, found, represents⟩ := refines.found held
    refine ⟨_, List.mem_map_of_mem (AList.mem_lookup_iff.mp (Option.mem_def.mpr found)), ?_, rfl⟩
    simp [represents.isEmpty, full]
  · obtain ⟨entry, there, rfl⟩ := List.mem_map.mp inside
    have here := Option.mem_def.mp (AList.mem_lookup_iff.mpr there)
    obtain ⟨held, represents⟩ := refines.spells here
    refine ⟨_, AList.mem_lookup_iff.mp (Option.mem_def.mpr held), fun empty => full ?_, rfl⟩
    have none : c.listOf entry.1 = [] := empty
    simp [represents.isEmpty, none]

theorem Refines.updateMinFreq (refines : s.Refines c) :
    s.updateMinFreq.Refines c.updateMinFreq := by
  refine ⟨refines.capacity, ?_, refines.maxAverageNum, refines.curAverageNum,
    refines.curTotalNum, refines.nodeMap, refines.fresh, refines.content, refines.lists,
    ⟨refines.numbered.object, refines.numbered.apart⟩⟩
  simp only [LinkedCache.updateMinFreq, KLfuCache.updateMinFreq, refines.leastIndex]

theorem Refines.handleOverMaxAverageNum (refines : s.Refines c) (linked : c.Linked members)
    (within : c.cached ⊆ members) {order : IterOrder (MapEntry Key)}
    (handled : c.handleOverMaxAverageNum order = .ok c') :
    ∃ s', s.handleOverMaxAverageNum order = .ok s' ∧ s'.Refines c' := by
  unfold KLfuCache.handleOverMaxAverageNum at handled
  unfold LinkedCache.handleOverMaxAverageNum
  rw [refines.nodeMap]
  split at handled
  · rename_i empty
    cases handled
    exact ⟨s, by rw [if_pos empty], refines⟩
  · rename_i present
    obtain ⟨aged, loop, returned⟩ := (bind_ok_iff _ _ _).mp handled
    cases returned
    have inside : ∀ node ∈ (order.arrange c.nodeMap.entries).map (·.2), node ∈ members :=
      fun node met => within (((order.perm _).map _).mem_iff.mp met)
    obtain ⟨s', loop', refined, -⟩ := refines.ageAll linked inside loop
    refine ⟨s'.updateMinFreq, ?_, refined.updateMinFreq⟩
    rw [if_neg present]
    exact (bind_ok_iff _ _ _).mpr ⟨s', loop', rfl⟩

theorem Refines.average (refines : s.Refines c) : s.average = c.average := by
  unfold LinkedCache.average KLfuCache.average
  rw [refines.nodeMap, refines.curTotalNum, refines.size]

theorem Refines.addFreqNum (refines : s.Refines c) (linked : c.Linked members)
    (within : c.cached ⊆ members) {order : IterOrder (MapEntry Key)}
    (counted : c.addFreqNum order = .ok c') :
    ∃ s', s.addFreqNum order = .ok s' ∧ s'.Refines c' := by
  let more : LinkedCache Key Value := { s with curTotalNum := s.curTotalNum + 1 }
  let more' : KLfuCache Key Value := { c with curTotalNum := c.curTotalNum + 1 }
  have first : more.Refines more' :=
    ⟨refines.capacity, refines.minFreq, refines.maxAverageNum, refines.curAverageNum,
      congrArg (· + 1) refines.curTotalNum, refines.nodeMap, refines.fresh, refines.content,
      refines.lists, ⟨refines.numbered.object, refines.numbered.apart⟩⟩
  have averaged : ({ more with curAverageNum := more.average } : LinkedCache Key Value).Refines
      { more' with curAverageNum := more'.average } :=
    ⟨first.capacity, first.minFreq, first.maxAverageNum, first.average, first.curTotalNum,
      first.nodeMap, first.fresh, first.content, first.lists,
      ⟨first.numbered.object, first.numbered.apart⟩⟩
  have due : s.maxAverageNum < more.average ↔ c.maxAverageNum < more'.average := by
    rw [refines.maxAverageNum, first.average]
  by_cases exceeds : c.maxAverageNum < more'.average
  · obtain ⟨s', handled, refined⟩ := averaged.handleOverMaxAverageNum
      (linked.congr rfl rfl fun _ _ => ⟨rfl, rfl⟩) within ((if_pos exceeds).symm.trans counted)
    exact ⟨s', (if_pos (due.mpr exceeds)).trans handled, refined⟩
  · obtain rfl := Except.ok.inj ((if_neg exceeds).symm.trans counted)
    exact ⟨_, if_neg fun on => exceeds (due.mp on), averaged⟩

theorem Refines.raiseMinFreq (refines : s.Refines c) {left : Nat}
    (raised : c.raiseMinFreq left = .ok c') :
    ∃ s' minFreq, s.raiseMinFreq left = .ok s' ∧ s'.Refines c' ∧ c' = { c with minFreq } := by
  unfold KLfuCache.raiseMinFreq at raised
  unfold LinkedCache.raiseMinFreq
  rw [refines.minFreq]
  split at raised
  · rename_i here
    obtain ⟨list, held, returned⟩ := (bind_ok_iff _ _ _).mp raised
    cases returned
    obtain ⟨object, found, -, -, represents⟩ := refines.listAt held
    rw [if_pos here]
    simp only [bind_ok_iff]
    cases empty : list.isEmpty with
    | true =>
        refine ⟨{ s with minFreq := c.minFreq + 1 }, c.minFreq + 1, ⟨object, found, ?_⟩, ?_, ?_⟩
        · rw [represents.isEmpty, empty]
          rfl
        · exact ⟨refines.capacity, rfl, refines.maxAverageNum, refines.curAverageNum,
            refines.curTotalNum, refines.nodeMap, refines.fresh, refines.content, refines.lists,
            ⟨refines.numbered.object, refines.numbered.apart⟩⟩
        · rfl
    | false =>
        refine ⟨s, c.minFreq, ⟨object, found, ?_⟩, refines, rfl⟩
        rw [represents.isEmpty, empty]
        rfl
  · rename_i elsewhere
    cases raised
    exact ⟨s, c.minFreq, if_neg elsewhere, refines, rfl⟩

/-- An access to a linked node. -/
theorem Refines.getInternal (refines : s.Refines c) (linked : c.Linked members)
    (within : c.cached ⊆ members) (inside : node ∈ members) {order : IterOrder (MapEntry Key)}
    (visited : c.getInternal node order = .ok c') :
    ∃ s', s.getInternal (.node node) order = .ok s' ∧ s'.Refines c' := by
  obtain ⟨removed, taken, again⟩ := (bind_ok_iff _ _ _).mp visited
  obtain ⟨raised, found, counted⟩ := (bind_ok_iff _ _ _).mp again
  obtain ⟨removed', taken', linked', kept, heap, -⟩ := linked.removeFromFreqList inside
  cases taken.symm.trans taken'
  obtain ⟨first, left, refines₁⟩ := refines.removeFromFreqList linked inside taken
  have outside : node ∉ members \ {node} := fun within => within.2 rfl
  let freq := (c.heap node).freq + 1
  obtain ⟨second, added, refines₂⟩ := (refines₁.setFreq node freq).addToFreqList
    (linked'.setFreq outside freq) outside
  have linked₂ := (linked'.setFreq outside freq).addToFreqList outside
  rw [Set.insert_sdiff_self_of_mem inside] at linked₂
  obtain ⟨third, minFreq, raised', refines₃, rfl⟩ := refines₂.raiseMinFreq found
  have nodes := ((kept.trans (KLfuCache.relinked_setFreq removed node freq)).trans
    (KLfuCache.relinked_addToFreqList _ node)).toKept.cached
  obtain ⟨s', counted', refined⟩ := refines₃.addFreqNum
    (linked₂.congr rfl rfl fun _ _ => ⟨rfl, rfl⟩) (nodes.le.trans within) counted
  refine ⟨s', ?_, refined⟩
  unfold LinkedCache.getInternal
  simp only [refines.content, bind_ok_iff]
  exact ⟨first, left, second, added, third, raised', counted'⟩

theorem Refines.decreaseFreqNum (refines : s.Refines c) (num : Nat) :
    (s.decreaseFreqNum num).Refines (c.decreaseFreqNum num) := by
  let less : LinkedCache Key Value := { s with curTotalNum := s.curTotalNum - num }
  let less' : KLfuCache Key Value := { c with curTotalNum := c.curTotalNum - num }
  have first : less.Refines less' :=
    ⟨refines.capacity, refines.minFreq, refines.maxAverageNum, refines.curAverageNum,
      congrArg (· - (num : Int)) refines.curTotalNum, refines.nodeMap, refines.fresh,
      refines.content, refines.lists, ⟨refines.numbered.object, refines.numbered.apart⟩⟩
  exact ⟨first.capacity, first.minFreq, first.maxAverageNum, first.average, first.curTotalNum,
    first.nodeMap, first.fresh, first.content, first.lists,
    ⟨first.numbered.object, first.numbered.apart⟩⟩

theorem Refines.purge (refines : s.Refines c) : s.purge.Refines c.purge :=
  ⟨refines.capacity, refines.minFreq, refines.maxAverageNum, refines.curAverageNum,
    refines.curTotalNum, rfl, refines.fresh, refines.content, fun _ => .none, ⟨nofun, nofun⟩⟩

theorem create_refines (capacity : Nat) (maxAverageNum : Int) :
    (create capacity maxAverageNum : LinkedCache Key Value).Refines
      (KLfuCache.create capacity maxAverageNum) :=
  ⟨rfl, rfl, rfl, rfl, rfl, rfl, rfl, fun _ => rfl, fun _ => .none, ⟨nofun, nofun⟩⟩

theorem Refines.setMinFreq (refines : s.Refines c) (minFreq : Nat) :
    ({ s with minFreq := minFreq } : LinkedCache Key Value).Refines { c with minFreq := minFreq } :=
  ⟨refines.capacity, rfl, refines.maxAverageNum, refines.curAverageNum, refines.curTotalNum,
    refines.nodeMap, refines.fresh, refines.content, refines.lists,
    ⟨refines.numbered.object, refines.numbered.apart⟩⟩

theorem Refines.wellLinked (refines : s.Refines c) (holding : c.Holding members) :
    s.WellLinked := by
  refine ⟨fun freq object found => ?_, fun entry inside => ?_⟩
  · obtain ⟨-, represents⟩ := refines.spells found
    refine ⟨_, represents.threaded, fun node listed => ?_⟩
    rw [refines.freqOf]
    exact ((holding.linked.filed.mem _ node).mp listed).2
  · rw [refines.nodeMap] at inside
    have member : entry.2 ∈ members := holding.within (List.mem_map_of_mem inside)
    obtain ⟨list, held⟩ := Option.isSome_iff_exists.mp
      ((c.hasList_iff _).mp (holding.linked.hasList member))
    obtain ⟨object, found, -⟩ := refines.found held
    rw [refines.freqOf]
    refine ⟨?_, object, _, found, (refines.spells found).2.threaded,
      (holding.linked.filed.mem _ _).mpr ⟨member, rfl⟩⟩
    rw [refines.content]
    exact holding.keyed entry inside

end LinkedCache

end KamaWebserver
