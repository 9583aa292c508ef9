import KamaWebserver.LfuCapacity

set_option autoImplicit false

namespace KamaWebserver.KLfuCache

open Outcome Transition

variable {Key Value : Type}

/-- No call changes the parameters of the constructor. -/
structure SameLimits (c c' : KLfuCache Key Value) : Prop where
  capacity : c'.capacity = c.capacity
  maxAverageNum : c'.maxAverageNum = c.maxAverageNum

theorem SameLimits.refl (c : KLfuCache Key Value) : c.SameLimits c := ⟨rfl, rfl⟩

theorem SameLimits.trans {first second third : KLfuCache Key Value}
    (one : first.SameLimits second) (two : second.SameLimits third) : first.SameLimits third :=
  ⟨two.capacity.trans one.capacity, two.maxAverageNum.trans one.maxAverageNum⟩

variable [DecidableEq Key]

/-- What a lookup of the key finds. -/
def valueOf (c : KLfuCache Key Value) (key : Key) : Option Value :=
  (c.nodeMap.lookup key).map fun node => (c.heap node).value

/-- The values last put, after one more call. -/
def recorded (written : Key → Option Value) : CacheOp Key Value → Key → Option Value
  | .put key value _ => Function.update written key (some value)
  | .get _ _ => written
  | .purge => fun _ => none

/-- The value of the most recent `put` of each key since the last `purge`. -/
def lastPut (ops : List (CacheOp Key Value)) : Key → Option Value :=
  ops.foldl recorded fun _ => none

/-- No entry goes, and only the key's own value may change. -/
structure Spares (c : KLfuCache Key Value) (key : Key) (c' : KLfuCache Key Value) : Prop where
  nodeMap : c'.nodeMap = c.nodeMap
  others : ∀ other, other ≠ key → c'.valueOf other = c.valueOf other

/-- The map holds nothing but what was last put, nothing at all in a cache without capacity,
and a full cache can give up an entry. -/
structure Answering (c : KLfuCache Key Value) (written : Key → Option Value)
    (members : Set NodePtr) : Prop where
  holding : c.Holding members
  listed : c.nodeMap.entries ≠ [] → c.Listed
  positive : 1 ≤ c.minFreq
  unused : c.capacity = 0 → c.nodeMap = ∅
  written : ∀ key value, c.valueOf key = some value → written key = some value

variable {c c' : KLfuCache Key Value} {members : Set NodePtr} {key : Key} {node : NodePtr}

theorem Kept.valueOf (kept : Kept c c') : c'.valueOf = c.valueOf := by
  funext key
  unfold KLfuCache.valueOf
  rw [kept.nodeMap]
  cases c.nodeMap.lookup key with
  | none => rfl
  | some node => exact congrArg some (kept.content node).2

/-- A node has one key, so a value set in it is that of one key only. -/
theorem Holding.valueOf_setValue (holding : c.Holding members)
    (found : c.nodeMap.lookup key = some node) (value : Value) :
    (c.setValue node value).valueOf = Function.update c.valueOf key (some value) := by
  have here : (⟨key, node⟩ : MapEntry Key) ∈ c.nodeMap.entries := AList.mem_lookup_iff.mp found
  funext other
  by_cases same : other = key
  · subst same
    rw [Function.update_self]
    show (c.nodeMap.lookup other).map _ = _
    simp [found, KLfuCache.setValue, setNode]
  · rw [Function.update_of_ne same]
    show (c.nodeMap.lookup other).map _ = (c.nodeMap.lookup other).map _
    cases there : c.nodeMap.lookup other with
    | none => rfl
    | some node' =>
        have entry : (⟨other, node'⟩ : MapEntry Key) ∈ c.nodeMap.entries :=
          AList.mem_lookup_iff.mp there
        have different : node' ≠ node := fun equal =>
          same (congrArg Sigma.fst (holding.entry_eq entry here equal))
        simp [KLfuCache.setValue, setNode, different]

/-- What is still found after `kickOut` was found before. -/
theorem GaveUp.valueOf {erased : Key} (gave : GaveUp c erased c') {value : Value}
    (found : c'.valueOf key = some value) : c.valueOf key = some value := by
  unfold KLfuCache.valueOf at found ⊢
  rw [gave.nodeMap, gave.heap] at found
  by_cases same : key = erased
  · subst same
    simp at found
  · rwa [AList.lookup_erase_ne same] at found

theorem Inserted.valueOf {value : Value} (inserted : Inserted c key value c')
    (holding : c.Holding members) :
    c'.valueOf = Function.update c.valueOf key (some value) := by
  funext other
  unfold KLfuCache.valueOf
  rw [inserted.nodeMap]
  by_cases same : other = key
  · subst same
    rw [AList.lookup_insert, Function.update_self, Option.map_some, inserted.value]
  · rw [AList.lookup_insert_ne same, Function.update_of_ne same]
    cases there : c.nodeMap.lookup other with
    | none => rfl
    | some node =>
        have older := holding.within (cached_of_lookup there)
        rw [Option.map_some, Option.map_some, inserted.others node (holding.fresh_ne older)]

/-- A call that hits succeeds and spares the other entries. -/
theorem Answering.getInternal {written : Key → Option Value}
    (answering : c.Answering written members) (inside : node ∈ c.cached)
    (order : IterOrder (MapEntry Key)) :
    ∃ c', c.getInternal node order = .ok c' ∧ Kept c c' ∧ c'.Answering written members := by
  obtain ⟨c', returned, holding, visited⟩ := answering.holding.getInternal inside order
  refine ⟨c', returned, visited.kept, holding, fun present => ?_,
    visited.positive_minFreq answering.positive, ?_, ?_⟩
  · rw [visited.kept.nodeMap] at present
    exact visited.listed (answering.listed present)
  · rw [visited.kept.capacity, visited.kept.nodeMap]
    exact answering.unused
  · rw [visited.kept.valueOf]
    exact answering.written

theorem Answering.setValue {written : Key → Option Value}
    (answering : c.Answering written members) (found : c.nodeMap.lookup key = some node)
    (value : Value) :
    (c.setValue node value).Answering (Function.update written key (some value)) members := by
  refine ⟨answering.holding.setValue node value, fun present => ?_, answering.positive,
    answering.unused, ?_⟩
  · exact ⟨(answering.listed present).one, (answering.listed present).minFreq⟩
  · rw [answering.holding.valueOf_setValue found]
    intro other seen
    by_cases same : other = key
    · subst same
      simp
    · simpa [same] using answering.written other seen

variable [Inhabited Key]

/-- `kickOut` never meets a missing list, whichever key it erases. -/
theorem Answering.kickOut {written : Key → Option Value}
    (answering : c.Answering written members) (present : c.nodeMap.entries ≠ []) :
    ∃ erased rest c', c.kickOut = .ok c' ∧ GaveUp c erased c' ∧ c'.Holding rest := by
  cases list : c.listOf c.minFreq with
  | nil =>
      obtain ⟨c', returned, holding, gave⟩ :=
        answering.holding.kickOut_dummy (answering.listed present) list
      exact ⟨default, members, c', returned, gave, holding⟩
  | cons node nodes =>
      obtain ⟨c', returned, holding, gave, -⟩ := answering.holding.kickOut_first list
      exact ⟨_, _, c', returned, gave, holding⟩

theorem Answering.putInternal {written : Key → Option Value}
    (answering : c.Answering written members) (room : c.capacity ≠ 0)
    (absent : key ∉ c.nodeMap) (value : Value) (order : IterOrder (MapEntry Key)) :
    ∃ c' members', c.putInternal key value order = .ok c' ∧
      c'.Answering (Function.update written key (some value)) members' ∧ c.SameLimits c' := by
  have makes : ∃ rest remaining, (if c.size = c.capacity then c.kickOut else pure c) = .ok rest ∧
      rest.Holding remaining ∧ key ∉ rest.nodeMap ∧ 1 ≤ rest.minFreq ∧ c.SameLimits rest ∧
      ∀ other value, rest.valueOf other = some value → c.valueOf other = some value := by
    by_cases full : c.size = c.capacity
    · have present : c.nodeMap.entries ≠ [] := by
        intro empty
        simp only [size, empty, List.length_nil] at full
        exact room full.symm
      obtain ⟨erased, remaining, rest, returned, gave, holding⟩ := answering.kickOut present
      refine ⟨rest, remaining, by rw [if_pos full, returned], holding, ?_, ?_,
        ⟨gave.capacity, gave.maxAverageNum⟩, fun other value found => gave.valueOf found⟩
      · rw [gave.nodeMap, AList.mem_erase]
        exact fun within => absent within.2
      · rw [gave.minFreq]
        exact answering.positive
    · exact ⟨c, members, by rw [if_neg full]; rfl, answering.holding, absent, answering.positive,
        .refl c, fun _ _ found => found⟩
  obtain ⟨rest, remaining, made, holding, absent, positive, limits, fewer⟩ := makes
  obtain ⟨filled, accessed, returned, holding', inserted, -, counted⟩ :=
    holding.putInternal made absent value order
  have one : min accessed.minFreq 1 = 1 :=
    Nat.min_eq_right (counted.positive (inserted.minFreq ▸ positive))
  have same : c.SameLimits accessed := limits.trans (.trans
    ⟨inserted.capacity, inserted.maxAverageNum⟩
    ⟨counted.kept.capacity, counted.kept.maxAverageNum⟩)
  refine ⟨_, _, returned, ⟨holding'.setMinFreq _, fun _ => ⟨counted.lists 1 inserted.one, ?_⟩,
    Nat.le_of_eq one.symm, fun none => absurd none ?_, fun other found seen => ?_⟩,
    same.capacity, same.maxAverageNum⟩
  · show accessed.HasList (min accessed.minFreq 1)
    rw [one]
    exact counted.lists 1 inserted.one
  · show accessed.capacity ≠ 0
    rwa [same.capacity]
  · have before : accessed.valueOf other = some found := seen
    rw [counted.kept.valueOf, inserted.valueOf holding] at before
    by_cases same : other = key
    · subst same
      simpa using before
    · rw [Function.update_of_ne same] at before ⊢
      exact answering.written other found (fewer other found before)

/-- Every call succeeds and keeps the record of what was put. -/
theorem Answering.step {written : Key → Option Value} (answering : c.Answering written members)
    (op : CacheOp Key Value) :
    ∃ c' members', c.step op = .ok c' ∧ c'.Answering (recorded written op) members' ∧
      c.SameLimits c' := by
  cases op with
  | put key value order =>
      by_cases closed : c.capacity = 0
      · refine ⟨c, members, if_pos closed, ⟨answering.holding, answering.listed,
          answering.positive, answering.unused, fun other found seen => ?_⟩, .refl c⟩
        simp [valueOf, answering.unused closed] at seen
      · cases found : c.nodeMap.lookup key with
        | some node =>
            have inside : node ∈ (c.setValue node value).cached := cached_of_lookup found
            obtain ⟨c', returned, same, kept⟩ :=
              (answering.setValue found value).getInternal inside order
            exact ⟨c', members, (put_found closed found value order).trans returned, kept,
              same.capacity, same.maxAverageNum⟩
        | none =>
            obtain ⟨c', members', returned, kept⟩ :=
              answering.putInternal closed (AList.lookup_eq_none.mp found) value order
            exact ⟨c', members', (put_absent closed found value order).trans returned, kept⟩
  | get key order =>
      cases found : c.nodeMap.lookup key with
      | some node =>
          obtain ⟨c', returned, same, kept⟩ :=
            answering.getInternal (cached_of_lookup found) order
          exact ⟨c', members, step_get (get_found found returned), kept, same.capacity,
            same.maxAverageNum⟩
      | none => exact ⟨c, members, step_get (get_absent found order), answering, .refl c⟩
  | purge =>
      have agrees : c.purge.Agrees := agrees_of_empty rfl rfl
      exact ⟨c.purge, _, rfl, ⟨agrees.toHolding, fun present => absurd rfl present,
        answering.positive, fun _ => rfl, by simp [valueOf, purge]⟩, rfl, rfl⟩

/-- What `get` and a `put` of a cached key return and leave alone. -/
structure Answers (c : KLfuCache Key Value) (written : Key → Option Value) : Prop where
  get : ∀ key order, ∃ c' result, c.get key order = .ok (c', result) ∧
    (∀ value, result = some value → written key = some value) ∧ (result = none → c' = c) ∧
    c.Spares key c'
  put : ∀ key value order, key ∈ c.nodeMap →
    ∃ c', c.put key value order = .ok c' ∧ c.Spares key c'

theorem Answering.answers {written : Key → Option Value}
    (answering : c.Answering written members) : c.Answers written := by
  refine ⟨fun key order => ?_, fun key value order present => ?_⟩
  · cases found : c.nodeMap.lookup key with
    | none =>
        exact ⟨c, none, get_absent found order, by simp, fun _ => rfl, rfl, fun _ _ => rfl⟩
    | some node =>
        obtain ⟨c', returned, kept, -⟩ := answering.getInternal (cached_of_lookup found) order
        refine ⟨c', some (c.heap node).value, get_found found returned, fun value same => ?_,
          by simp, kept.nodeMap, fun other _ => by rw [kept.valueOf]⟩
        refine answering.written key value ?_
        rw [← same, valueOf, found, Option.map_some]
  · obtain ⟨node, found⟩ := Option.isSome_iff_exists.mp (AList.lookup_isSome.mpr present)
    have opened : c.capacity ≠ 0 := by
      intro closed
      rw [answering.unused closed] at found
      cases found
    have inside : node ∈ (c.setValue node value).cached := cached_of_lookup found
    obtain ⟨c', returned, kept, -⟩ := (answering.setValue found value).getInternal inside order
    refine ⟨c', (put_found opened found value order).trans returned, kept.nodeMap,
      fun other different => ?_⟩
    rw [kept.valueOf, answering.holding.valueOf_setValue found, Function.update_of_ne different]

theorem Answering.run {written : Key → Option Value} (answering : c.Answering written members)
    (ops : List (CacheOp Key Value)) :
    ∃ c' members', Transition.run KLfuCache.step c ops = .ok c' ∧
      c'.Answering (ops.foldl recorded written) members' ∧ c.SameLimits c' := by
  induction ops generalizing c written members with
  | nil => exact ⟨c, members, rfl, answering, .refl c⟩
  | cons op ops ih =>
      obtain ⟨middle, between, taken, kept, same⟩ := answering.step op
      obtain ⟨c', members', reached, final, limits⟩ := ih kept
      exact ⟨c', members', (run_cons_ok_iff _ _ _ _).mpr ⟨middle, taken, reached⟩, final,
        same.trans limits⟩

theorem create_answering [Inhabited Value] (capacity : Nat) (maxAverageNum : Int) :
    ∃ members, (create capacity maxAverageNum : KLfuCache Key Value).Answering (fun _ => none)
      members := by
  have agrees : (create capacity maxAverageNum : KLfuCache Key Value).Agrees :=
    agrees_of_empty rfl rfl
  exact ⟨_, agrees.toHolding, fun present => absurd rfl present, (by decide : 1 ≤ int8Max),
    fun _ => rfl, by simp [valueOf, create]⟩

/-- For every capacity and every bound on the average, a run of calls ends without a fault in a
cache whose lookups return nothing but the value last put. -/
theorem lookups_answer [Inhabited Value] (capacity : Nat) (maxAverageNum : Int)
    (ops : List (CacheOp Key Value)) :
    ∃ c, Transition.run step (create capacity maxAverageNum) ops = .ok c ∧
      c.Answers (lastPut ops) := by
  obtain ⟨members, first⟩ : ∃ members, (create capacity maxAverageNum :
      KLfuCache Key Value).Answering (fun _ => none) members :=
    create_answering capacity maxAverageNum
  obtain ⟨c, members, reached, answering, -⟩ := first.run ops
  exact ⟨c, reached, answering.answers⟩

end KamaWebserver.KLfuCache
