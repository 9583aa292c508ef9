import KamaWebserver.LfuRefinement

set_option autoImplicit false

namespace KamaWebserver.LinkedCache

open DoublyLinked Outcome

variable {Key Value : Type} [Inhabited Key] [Inhabited Value] [DecidableEq Key]
  {s : LinkedCache Key Value} {c c' : KLfuCache Key Value} {members : Set NodePtr} {node : NodePtr}

theorem Refines.eraseKey (refines : s.Refines c) (key : Key) :
    (s.eraseKey key).Refines (c.eraseKey key) :=
  ⟨refines.capacity, refines.minFreq, refines.maxAverageNum, refines.curAverageNum,
    refines.curTotalNum, congrArg (AList.erase key) refines.nodeMap, refines.fresh,
    refines.content, refines.lists, ⟨refines.numbered.object, refines.numbered.apart⟩⟩

/-- The first node of an empty list is its tail, which `removeNode` leaves alone. -/
theorem Refines.kickOut (refines : s.Refines c) (linked : c.Linked members)
    (kicked : c.kickOut = .ok c') : ∃ s', s.kickOut = .ok s' ∧ s'.Refines c' := by
  obtain ⟨list, held, chosen⟩ := (bind_ok_iff _ _ _).mp kicked
  obtain ⟨object, here, found, rfl, represents⟩ := refines.listAt held
  have first : object.getFirstNode s.links =
      some (((c.listOf c.minFreq).map NodeRef.node).headD object.tail) := represents.next_head
  unfold LinkedCache.kickOut
  rw [refines.minFreq]
  cases list : c.listOf c.minFreq with
  | cons node rest =>
      rw [list] at first chosen
      have listed : node ∈ c.listOf c.minFreq := by simp [list]
      obtain ⟨removed, taken, returned⟩ := (bind_ok_iff _ _ _).mp chosen
      cases returned
      obtain ⟨middle, left, refines'⟩ :=
        refines.removeFromFreqList linked ((linked.filed.mem _ node).mp listed).1 taken
      have content := refines'.content node
      refine ⟨_, ?_, (refines'.eraseKey (removed.heap node).key).decreaseFreqNum
        (removed.heap node).freq⟩
      simp only [bind_ok_iff]
      refine ⟨object, here, ?_⟩
      simp only [first, List.map_cons, List.headD_cons, bind_ok_iff]
      refine ⟨middle, left, ?_⟩
      rw [content]
      rfl
  | nil =>
      rw [list] at first chosen
      obtain ⟨one, held', returned⟩ := (bind_ok_iff _ _ _).mp chosen
      cases returned
      obtain ⟨object', here', -⟩ := refines.listAt held'
      obtain ⟨number, -, rfl, dummy⟩ := refines.numbered.object _ object found
      have stays : s.removeFromFreqList (.tail number) = .ok s := by
        have alone := represents.unlink_tail
        simp only [LinkedCache.removeFromFreqList, dummy, bind_ok_iff]
        refine ⟨object', here', ?_⟩
        rw [FreqListObject.removeNode, alone]
        rfl
      refine ⟨_, ?_, (refines.eraseKey default).decreaseFreqNum 1⟩
      simp only [bind_ok_iff]
      refine ⟨_, here, ?_⟩
      simp only [first, List.map_nil, List.headD_nil, bind_ok_iff]
      refine ⟨s, stays, ?_⟩
      rw [dummy]
      rfl

/-- A new node has no links and is in no list. -/
theorem Refines.insertNode (refines : s.Refines c) (holding : c.Holding members) (key : Key)
    (value : Value) : (s.insertNode key value).Refines (c.insertNode key value) := by
  refine ⟨refines.capacity, refines.minFreq, refines.maxAverageNum, refines.curAverageNum,
    refines.curTotalNum, ?_, congrArg (· + 1) refines.fresh, fun node => ?_, fun freq => ?_,
    ⟨fun freq object found => ?_, refines.numbered.apart⟩⟩
  · simp only [LinkedCache.insertNode, KLfuCache.insertNode, KLfuCache.setNode, refines.nodeMap,
      refines.fresh]
  · simp only [LinkedCache.insertNode, KLfuCache.heap_insertNode, refines.fresh]
    by_cases same : node = c.fresh
    · rw [same, Function.update_self, Function.update_self]
    · rw [Function.update_of_ne same, Function.update_of_ne (by simpa using same),
        refines.content]
  · have related := refines.lists freq
    change Option.Rel _ (s.freqToFreqList.lookup freq) (c.freqToFreqList.lookup freq)
    cases held : c.freqToFreqList.lookup freq with
    | none =>
        rw [refines.missing held]
        exact .none
    | some list =>
        obtain ⟨object, found, represents⟩ := refines.found held
        rw [found]
        refine .some (represents.congr fun item inside => Links.clear_elsewhere s.links ?_)
        rintro rfl
        obtain ⟨number, -, rfl, -⟩ := refines.numbered.object freq object found
        have listed : c.fresh ∈ c.listOf freq := by
          rw [KLfuCache.listOf, held]
          simpa [refines.fresh] using inside
        exact holding.fresh_ne ((holding.linked.filed.mem _ _).mp listed).1 rfl
  · obtain ⟨list, older, made, dummy⟩ := refines.numbered.object freq object found
    refine ⟨list, older, made, ?_⟩
    simpa [LinkedCache.insertNode] using dummy

/-- `putInternal` from the point where there is room. -/
theorem Refines.fill (refines : s.Refines c) (holding : c.Holding members) {key : Key}
    (absent : key ∉ c.nodeMap) (value : Value) {order : IterOrder (MapEntry Key)}
    (counted : ((c.insertNode key value).addToFreqList c.fresh).addFreqNum order = .ok c') :
    ∃ added s', (s.insertNode key value).addToFreqList (.node s.fresh) = .ok added ∧
      added.addFreqNum order = .ok s' ∧ s'.Refines c' := by
  have outside : c.fresh ∉ members := fun within => holding.fresh_ne within rfl
  obtain ⟨added, linked, refines'⟩ := (refines.insertNode holding key value).addToFreqList
    (holding.insertNode_linked key value) outside
  have holding' := holding.insertNode absent value
  obtain ⟨s', counted', refined⟩ := refines'.addFreqNum holding'.linked holding'.within counted
  rw [← refines.fresh] at linked
  exact ⟨added, s', linked, counted', refined⟩

variable {written : Key → Option Value} {key : Key} {value : Value}
  {order : IterOrder (MapEntry Key)}

theorem Refines.putInternal (refines : s.Refines c) (answering : c.Answering written members)
    (room : c.capacity ≠ 0) (absent : key ∉ c.nodeMap)
    (stored : c.putInternal key value order = .ok c') :
    ∃ s', s.putInternal key value order = .ok s' ∧ s'.Refines c' := by
  obtain ⟨rest, made, again⟩ := (bind_ok_iff _ _ _).mp stored
  obtain ⟨accessed, counted, returned⟩ := (bind_ok_iff _ _ _).mp again
  cases returned
  have makes : ∃ middle remaining,
      (if s.size = s.capacity then s.kickOut else pure s) = .ok middle ∧
      middle.Refines rest ∧ rest.Holding remaining ∧ key ∉ rest.nodeMap := by
    rw [refines.size, refines.capacity]
    by_cases full : c.size = c.capacity
    · rw [if_pos full] at made ⊢
      have present : c.nodeMap.entries ≠ [] := by
        intro empty
        simp only [KLfuCache.size, empty, List.length_nil] at full
        exact room full.symm
      obtain ⟨erased, remaining, other, returned, gave, holding⟩ := answering.kickOut present
      cases made.symm.trans returned
      obtain ⟨middle, kicked, refines'⟩ := refines.kickOut answering.holding.linked made
      refine ⟨middle, remaining, kicked, refines', holding, ?_⟩
      rw [gave.nodeMap, AList.mem_erase]
      exact fun within => absent within.2
    · rw [if_neg full] at made ⊢
      cases made
      exact ⟨s, members, rfl, refines, answering.holding, absent⟩
  obtain ⟨middle, remaining, made', refines', holding, absent⟩ := makes
  obtain ⟨added, s', linked, counted', refined⟩ := refines'.fill holding absent value counted
  refine ⟨{ s' with minFreq := min s'.minFreq 1 }, ?_, ?_⟩
  · unfold LinkedCache.putInternal
    simp only [bind_ok_iff]
    exact ⟨middle, made', added, linked, s', counted', rfl⟩
  · rw [refined.minFreq]
    exact refined.setMinFreq _

theorem Refines.put (refines : s.Refines c) (answering : c.Answering written members)
    (stored : c.put key value order = .ok c') :
    ∃ s', s.put key value order = .ok s' ∧ s'.Refines c' := by
  unfold KLfuCache.put at stored
  unfold LinkedCache.put
  rw [refines.capacity, refines.nodeMap]
  by_cases closed : c.capacity = 0
  · rw [if_pos closed] at stored ⊢
    cases stored
    exact ⟨s, rfl, refines⟩
  · rw [if_neg closed] at stored ⊢
    cases found : c.nodeMap.lookup key with
    | none =>
        rw [found] at stored
        exact refines.putInternal answering closed (AList.lookup_eq_none.mp found) stored
    | some node =>
        rw [found] at stored
        have holding := answering.holding.setValue node value
        exact (refines.setValue node value).getInternal holding.linked holding.within
          (holding.within (KLfuCache.cached_of_lookup found)) stored

theorem Refines.get (refines : s.Refines c) (holding : c.Holding members)
    {result : Option Value} (answered : c.get key order = .ok (c', result)) :
    ∃ s', s.get key order = .ok (s', result) ∧ s'.Refines c' := by
  unfold KLfuCache.get at answered
  unfold LinkedCache.get
  rw [refines.nodeMap]
  cases found : c.nodeMap.lookup key with
  | none =>
      rw [found] at answered
      cases answered
      exact ⟨s, rfl, refines⟩
  | some node =>
      rw [found] at answered
      obtain ⟨c', visited, same⟩ := (map_ok_iff _ _ _).mp answered
      cases same
      obtain ⟨s', visited', refined⟩ := refines.getInternal holding.linked holding.within
        (holding.within (KLfuCache.cached_of_lookup found)) visited
      refine ⟨s', (map_ok_iff _ _ _).mpr ⟨s', visited', ?_⟩, refined⟩
      rw [refines.content]

/-- Every call goes through, with the same result and into related caches. -/
theorem Refines.step (refines : s.Refines c) (answering : c.Answering written members)
    (op : CacheOp Key Value) (taken : c.step op = .ok c') :
    ∃ s', s.step op = .ok s' ∧ s'.Refines c' := by
  cases op with
  | put key value order => exact refines.put answering taken
  | get key order =>
      obtain ⟨⟨next, result⟩, answered, same⟩ := (map_ok_iff _ _ _).mp taken
      obtain rfl : next = c' := same
      obtain ⟨s', answered', refined⟩ := refines.get answering.holding answered
      exact ⟨s', (map_ok_iff _ _ _).mpr ⟨_, answered', rfl⟩, refined⟩
  | purge =>
      cases taken
      exact ⟨s.purge, rfl, refines.purge⟩

theorem Refines.run (refines : s.Refines c) (answering : c.Answering written members)
    (ops : List (CacheOp Key Value)) :
    ∃ s' c', Transition.run LinkedCache.step s ops = .ok s' ∧
      Transition.run KLfuCache.step c ops = .ok c' ∧ s'.Refines c' := by
  induction ops generalizing s c written members with
  | nil => exact ⟨s, c, rfl, rfl, refines⟩
  | cons op ops ih =>
      obtain ⟨next, members', taken, kept, -⟩ := answering.step op
      obtain ⟨middle, taken', refines'⟩ := refines.step answering op taken
      obtain ⟨s', c', ran, ran', refined⟩ := ih refines' kept
      exact ⟨s', c', (Transition.run_cons_ok_iff _ _ _ _).mpr ⟨middle, taken', ran⟩,
        (Transition.run_cons_ok_iff _ _ _ _).mpr ⟨next, taken, ran'⟩, refined⟩

theorem Refines.answers (refines : s.Refines c) (answering : c.Answering written members)
    (ops : List (CacheOp Key Value)) : s.answers ops = c.answers ops := by
  induction ops generalizing s c written members with
  | nil => rfl
  | cons op ops ih =>
      obtain ⟨next, members', taken, kept, -⟩ := answering.step op
      cases op with
      | put key value order =>
          have stored : c.put key value order = .ok next := taken
          obtain ⟨s', stored', refined⟩ := refines.put answering stored
          simp only [LinkedCache.answers, KLfuCache.answers, stored, stored', bind, Except.bind]
          exact ih refined kept
      | get key order =>
          obtain ⟨⟨next', result⟩, answered, same⟩ := (map_ok_iff _ _ _).mp taken
          obtain rfl : next' = next := same
          obtain ⟨s', answered', refined⟩ := refines.get answering.holding answered
          simp only [LinkedCache.answers, KLfuCache.answers, answered, answered', bind,
            Except.bind]
          rw [ih refined kept]
      | purge =>
          obtain rfl : c.purge = next := Except.ok.inj taken
          exact ih refines.purge kept

/-- For every capacity and bound, every run of the cache with its links answers as the run of
the cache of lists does, and ends in a state whose links spell the lists. -/
theorem links_refine_lists (capacity : Nat) (maxAverageNum : Int)
    (ops : List (CacheOp Key Value)) :
    (create capacity maxAverageNum : LinkedCache Key Value).answers ops =
        (KLfuCache.create capacity maxAverageNum).answers ops ∧
      ∃ s c, Transition.run LinkedCache.step (create capacity maxAverageNum) ops = .ok s ∧
        Transition.run KLfuCache.step (KLfuCache.create capacity maxAverageNum) ops = .ok c ∧
        s.Refines c := by
  obtain ⟨members, first⟩ : ∃ members, (KLfuCache.create capacity maxAverageNum :
      KLfuCache Key Value).Answering (fun _ => none) members :=
    KLfuCache.create_answering capacity maxAverageNum
  have start : (create capacity maxAverageNum : LinkedCache Key Value).Refines _ :=
    create_refines capacity maxAverageNum
  exact ⟨start.answers first ops, start.run first ops⟩

/-- No run of calls follows a null link, and every run leaves the lists well linked. -/
theorem run_wellLinked (capacity : Nat) (maxAverageNum : Int) (ops : List (CacheOp Key Value)) :
    ∃ s, Transition.run LinkedCache.step (create capacity maxAverageNum) ops = .ok s ∧
      s.WellLinked := by
  obtain ⟨members, first⟩ : ∃ members, (KLfuCache.create capacity maxAverageNum :
      KLfuCache Key Value).Answering (fun _ => none) members :=
    KLfuCache.create_answering capacity maxAverageNum
  obtain ⟨s, c, ran, ran', refines⟩ := (create_refines capacity maxAverageNum).run first ops
  obtain ⟨c', members', ran'', answering, -⟩ := first.run ops
  cases ran'.symm.trans ran''
  exact ⟨s, ran, refines.wellLinked answering.holding⟩

end KamaWebserver.LinkedCache
