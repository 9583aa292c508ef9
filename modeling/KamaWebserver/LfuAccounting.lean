import KamaWebserver.LfuEviction

set_option autoImplicit false

namespace KamaWebserver.KLfuCache

open Outcome Transition

variable {Key Value : Type}

/-- The counter is the sum of the cached frequencies, and the average is that of the entries,
rounded down, and zero when there are none. -/
structure Accounts (c : KLfuCache Key Value) : Prop where
  total : c.curTotalNum = c.freqSum
  average : c.curAverageNum = (c.freqSum / c.size : Nat)

/-- If the aging pass is due at an access to the node, it changes no frequency. -/
def AgingIdle (c : KLfuCache Key Value) (node : NodePtr) : Prop :=
  c.AgingDue → ∀ other ∈ c.nodes,
    c.visitedFreq node other = if other = node then c.freqOf other + 1 else c.freqOf other

/-- The node that a `put` of an absent key makes `kickOut` remove. -/
def victim? (c : KLfuCache Key Value) : Option NodePtr :=
  if c.size = c.capacity then (c.listOf c.minFreq).head? else none

/-- The aging pass is due when a new node of frequency 1 has come and the victim has gone. -/
def PutAgingDue (c : KLfuCache Key Value) : Prop :=
  c.maxAverageNum < averageOf (c.curTotalNum - (c.victim?.map c.freqOf).getD 0 + 1)
    (c.size - c.victim?.toList.length + 1)

/-- The aging pass comes exactly when the true average exceeds its maximum: at an access to a cached
node that of the entries and this access, at a `put` of an absent key that of the entries without
the victim and with the new one. -/
structure AgesOnAverage (c : KLfuCache Key Value) : Prop where
  hit : c.AgingDue ↔ c.maxAverageNum < ((c.freqSum + 1) / c.size : Nat)
  put : c.PutAgingDue ↔ c.maxAverageNum <
    ((c.freqSum - (c.victim?.map c.freqOf).getD 0 + 1) /
      (c.size - c.victim?.toList.length + 1) : Nat)

/-- A full cache has a node in the list of `minFreq_`, and if the aging pass is due it changes
no frequency of a node that stays. -/
def PutIdle (c : KLfuCache Key Value) : Prop :=
  (c.size = c.capacity → c.listOf c.minFreq ≠ []) ∧
    (c.PutAgingDue → ∀ other ∈ c.nodes, other ∉ c.victim? →
      agedFreq c.maxAverageNum (c.freqOf other) = c.freqOf other)

variable {c c' : KLfuCache Key Value} {node : NodePtr}

/-- Aging is due only when the true average exceeds its maximum, counting the access. -/
theorem Accounts.agingDue_iff (accounts : c.Accounts) :
    c.AgingDue ↔ c.maxAverageNum < ((c.freqSum + 1) / c.size : Nat) := by
  unfold AgingDue
  rw [accounts.total, averageOf_eq (by omega)]
  push_cast
  rfl

/-- The victim is one of the entries. -/
theorem Agrees.victim_le (agrees : c.Agrees) : (c.victim?.map c.freqOf).getD 0 ≤ c.freqSum := by
  unfold victim?
  split
  · cases front : c.listOf c.minFreq with
    | nil => exact Nat.zero_le _
    | cons node rest =>
        have listed : node ∈ c.listOf c.minFreq := by simp [front]
        have inside := ((agrees.linked.filed.mem _ node).mp listed).1
        exact List.le_sum_of_mem (List.mem_map_of_mem inside)
  · exact Nat.zero_le _

/-- Counters that account for the entries let the aging pass come by the true average. -/
theorem Accounts.agesOnAverage (accounts : c.Accounts) (agrees : c.Agrees) : c.AgesOnAverage := by
  refine ⟨accounts.agingDue_iff, ?_⟩
  have less := agrees.victim_le
  unfold PutAgingDue
  rw [accounts.total, averageOf_eq (by omega)]
  push_cast [less]
  rfl

/-- An access keeps the account when the frequencies it leaves sum up to the counter. -/
theorem accounts_of_sum (freq : NodePtr → Nat) (kept : Kept c c')
    (freqs : ∀ node ∈ c.nodes, c'.freqOf node = freq node)
    (total : c'.curTotalNum = (c.nodes.map freq).sum)
    (average : c'.curAverageNum = averageOf c'.curTotalNum c.size) : c'.Accounts := by
  have sum : c'.freqSum = (c.nodes.map freq).sum := by
    unfold freqSum
    rw [kept.nodes, List.map_congr_left freqs]
  refine ⟨total.trans (by rw [sum]), ?_⟩
  rw [average, total, averageOf_eq (by omega), sum, kept.size]
  push_cast
  rfl

/-- An empty cache that has counted nothing. -/
theorem accounts_of_none (nodes : c.nodes = []) (total : c.curTotalNum = 0)
    (average : c.curAverageNum = 0) : c.Accounts := by
  have sum : c.freqSum = 0 := by simp [freqSum, nodes]
  refine ⟨by rw [total, sum]; rfl, ?_⟩
  rw [average, sum, Nat.zero_div]
  rfl

theorem Visited.accounts (visited : Visited c node c') (agrees : c.Agrees) (accounts : c.Accounts)
    (inside : node ∈ c.nodes) (idle : c.AgingIdle node) : c'.Accounts := by
  refine accounts_of_sum
    (fun other => if other = node then c.freqOf other + 1 else c.freqOf other) visited.kept
    (fun other within => ?_) ?_ visited.average
  · rw [visited.freqOf other within]
    by_cases due : c.AgingDue
    · exact idle due other within
    · unfold visitedFreq
      rw [if_neg due]
  · rw [visited.total, accounts.total, sum_promoted agrees.nodes_nodup inside]
    rfl

theorem Accounts.setValue (accounts : c.Accounts) (node : NodePtr) (value : Value) :
    (c.setValue node value).Accounts := by
  refine ⟨?_, ?_⟩
  · rw [freqSum_setValue]
    exact accounts.total
  · rw [freqSum_setValue]
    exact accounts.average

theorem agingIdle_setValue (c : KLfuCache Key Value) (node : NodePtr) (value : Value) :
    (c.setValue node value).AgingIdle node ↔ c.AgingIdle node := by
  unfold AgingIdle visitedFreq
  rw [freqOf_setValue]
  rfl

variable [DecidableEq Key] {key : Key} {value : Value}

theorem Inserted.size (inserted : Inserted c key value c') : c'.size = c.size + 1 := by
  rw [size_eq, size_eq, inserted.nodes, List.length_cons]

/-- What the entries that stay have to meet for a new one to be counted right. -/
theorem Inserted.accounts {rest filled accessed : KLfuCache Key Value}
    (inserted : Inserted rest key value filled) (counted : Accessed filled accessed)
    (agrees : rest.Agrees) (total : rest.curTotalNum = rest.freqSum)
    (bound : 0 ≤ rest.maxAverageNum)
    (idle : rest.maxAverageNum < averageOf (rest.curTotalNum + 1) (rest.size + 1) →
      ∀ other ∈ rest.nodes, agedFreq rest.maxAverageNum (rest.freqOf other) = rest.freqOf other) :
    accessed.Accounts := by
  refine accounts_of_sum filled.freqOf counted.kept (fun node within => ?_) ?_ counted.average
  · by_cases due : filled.AgingDue
    · rw [counted.freqOf due node within, inserted.maxAverageNum, inserted.freqOf]
      rw [inserted.nodes] at within
      unfold AgingDue at due
      rw [inserted.maxAverageNum, inserted.total, inserted.size] at due
      rcases List.mem_cons.mp within with rfl | older
      · rw [Function.update_self, agedFreq_eq bound]
        omega
      · rw [Function.update_of_ne (agrees.fresh_ne older)]
        exact idle due node older
    · rw [(counted.quiet due).1]
  · rw [counted.total, inserted.total, total]
    exact congrArg Nat.cast (inserted.freqSum agrees).symm

variable [Inhabited Key]

/-- What is left when a new entry has room. -/
theorem Agrees.makeRoom (agrees : c.Agrees) (accounts : c.Accounts) (idle : c.PutIdle) :
    ∃ rest, (if c.size = c.capacity then c.kickOut else pure c) = .ok rest ∧ rest.Agrees ∧
      rest.curTotalNum = rest.freqSum ∧ rest.capacity = c.capacity ∧
      rest.maxAverageNum = c.maxAverageNum ∧ (∀ key, key ∉ c.nodeMap → key ∉ rest.nodeMap) ∧
      (rest.maxAverageNum < averageOf (rest.curTotalNum + 1) (rest.size + 1) ↔ c.PutAgingDue) ∧
      (c.PutAgingDue → ∀ other ∈ rest.nodes,
        agedFreq rest.maxAverageNum (rest.freqOf other) = rest.freqOf other) := by
  by_cases full : c.size = c.capacity
  · obtain ⟨node, nodes, list⟩ := List.exists_cons_of_ne_nil (idle.1 full)
    have victim : c.victim? = some node := by simp [victim?, full, list]
    obtain ⟨entry, rest, rfl, returned, removed⟩ := agrees.kickOut list
    have sum := removed.freqSum
    have size := removed.size
    have perm := removed.nodes
    have first := (List.nodup_cons.mp (perm.nodup_iff.mp agrees.nodes_nodup)).1
    refine ⟨rest, by rw [if_pos full, returned], removed.agrees, ?_, removed.capacity,
      removed.maxAverageNum, fun key absent => ?_, ?_, fun due other within => ?_⟩
    · rw [removed.total, accounts.total]
      omega
    · rw [removed.nodeMap, AList.mem_erase]
      exact fun within => absent within.2
    · rw [PutAgingDue, victim, removed.maxAverageNum, removed.total,
        show rest.size + 1 = c.size - 1 + 1 by omega]
      rfl
    · have stays := idle.2 due
      rw [victim] at stays
      rw [removed.maxAverageNum, removed.freqOf]
      refine stays other (perm.mem_iff.mpr (List.mem_cons_of_mem _ within)) ?_
      rintro same
      exact first (Option.some.inj same ▸ within)
  · have victim : c.victim? = none := by simp [victim?, full]
    refine ⟨c, by rw [if_neg full]; rfl, agrees, accounts.total, rfl, rfl, fun _ absent => absent,
      ?_, fun due other within => ?_⟩
    · simp [PutAgingDue, victim]
    · have stays := idle.2 due
      rw [victim] at stays
      exact stays other within (by simp)

theorem Agrees.putInternal (agrees : c.Agrees) (accounts : c.Accounts)
    (bound : 0 ≤ c.maxAverageNum) (absent : key ∉ c.nodeMap) (idle : c.PutIdle) (value : Value)
    (order : IterOrder (MapEntry Key)) :
    ∃ c', c.putInternal key value order = .ok c' ∧ c'.Agrees ∧ c'.Accounts ∧
      c'.capacity = c.capacity ∧ c'.maxAverageNum = c.maxAverageNum := by
  obtain ⟨rest, made, agrees', total, capacity, maxAverageNum, still, due, stays⟩ :=
    agrees.makeRoom accounts idle
  obtain ⟨filled, accessed, returned, holding, inserted, holding', counted⟩ :=
    agrees'.toHolding.putInternal made (still key absent) value order
  have done := (inserted.agrees holding').of_kept counted.kept holding' holding
  have counts := inserted.accounts counted agrees' total (maxAverageNum ▸ bound)
    fun ages => stays (due.mp ages)
  refine ⟨_, returned, ⟨done.toHolding.setMinFreq _⟩, ⟨counts.total, counts.average⟩, ?_, ?_⟩
  · exact counted.kept.capacity.trans (inserted.capacity.trans capacity)
  · exact counted.kept.maxAverageNum.trans (inserted.maxAverageNum.trans maxAverageNum)

/-- The pass of `putInternal` comes when `PutAgingDue` says so. -/
theorem Agrees.putInternal_ages (agrees : c.Agrees) (accounts : c.Accounts)
    (absent : key ∉ c.nodeMap) (idle : c.PutIdle) (value : Value)
    (order : IterOrder (MapEntry Key)) :
    ∃ filled accessed : KLfuCache Key Value, filled.addFreqNum order = .ok accessed ∧
      c.putInternal key value order = .ok { accessed with minFreq := min accessed.minFreq 1 } ∧
      (filled.AgingDue ↔ c.PutAgingDue) := by
  obtain ⟨rest, made, agrees', -, -, -, still, due, -⟩ := agrees.makeRoom accounts idle
  have absent' := still key absent
  obtain ⟨accessed, returned, -, -⟩ :=
    (agrees'.toHolding.insertNode absent' value).addFreqNum order
  have grown := inserted rest absent' value
  refine ⟨_, accessed, returned, ?_, ?_⟩
  · simp only [KLfuCache.putInternal, bind_ok_iff]
    exact ⟨rest, made, accessed, returned, rfl⟩
  · rw [← due, AgingDue, grown.maxAverageNum, grown.total, grown.size]

/-- The call changes no frequency behind the counter's back: a pass that comes leaves all
frequencies as they are, `kickOut` finds a node, and `purge` meets an empty cache. -/
def KeepsAccount (c : KLfuCache Key Value) : CacheOp Key Value → Prop
  | .put key _ _ =>
      match c.nodeMap.lookup key with
      | some node => c.AgingIdle node
      | none => c.PutIdle
  | .get key _ =>
      match c.nodeMap.lookup key with
      | some node => c.AgingIdle node
      | none => True
  | .purge => c.nodeMap.entries = []

/-- A call that meets its condition keeps the account. -/
theorem Accounts.step (accounts : c.Accounts) (agrees : c.Agrees) (room : 1 ≤ c.capacity)
    (bound : 0 ≤ c.maxAverageNum) {op : CacheOp Key Value} (keeps : c.KeepsAccount op) :
    ∃ c', c.step op = .ok c' ∧ c'.Agrees ∧ c'.Accounts ∧ c'.capacity = c.capacity ∧
      c'.maxAverageNum = c.maxAverageNum := by
  cases op with
  | put key value order =>
      have some : c.capacity ≠ 0 := by omega
      cases found : c.nodeMap.lookup key with
      | some node =>
          simp only [KeepsAccount, found] at keeps
          have inside : node ∈ (c.setValue node value).cached := cached_of_lookup found
          have agrees' : (c.setValue node value).Agrees := ⟨agrees.toHolding.setValue node value⟩
          obtain ⟨c', returned, -, visited⟩ := agrees'.toHolding.getInternal inside order
          exact ⟨c', (put_found some found value order).trans returned, visited.agrees agrees',
            visited.accounts agrees' (accounts.setValue node value) inside
              ((c.agingIdle_setValue node value).mpr keeps),
            visited.kept.capacity, visited.kept.maxAverageNum⟩
      | none =>
          simp only [KeepsAccount, found] at keeps
          obtain ⟨c', returned, kept⟩ := agrees.putInternal accounts bound
            (AList.lookup_eq_none.mp found) keeps value order
          exact ⟨c', (put_absent some found value order).trans returned, kept⟩
  | get key order =>
      cases found : c.nodeMap.lookup key with
      | some node =>
          simp only [KeepsAccount, found] at keeps
          have inside := cached_of_lookup found
          obtain ⟨c', returned, -, visited⟩ := agrees.toHolding.getInternal inside order
          exact ⟨c', step_get (get_found found returned), visited.agrees agrees,
            visited.accounts agrees accounts inside keeps, visited.kept.capacity,
            visited.kept.maxAverageNum⟩
      | none => exact ⟨c, step_get (get_absent found order), agrees, accounts, rfl, rfl⟩
  | purge =>
      have empty : c.nodeMap.entries = [] := keeps
      have nodes : c.nodes = [] := by simp [KLfuCache.nodes, empty]
      have sum : c.freqSum = 0 := by simp [freqSum, nodes]
      refine ⟨c.purge, rfl, agrees_of_empty rfl rfl, accounts_of_none rfl ?_ ?_, rfl, rfl⟩
      · show c.curTotalNum = 0
        rw [accounts.total, sum]
        rfl
      · show c.curAverageNum = 0
        rw [accounts.average, sum, Nat.zero_div]
        rfl

/-- In a run whose calls all meet the condition, the counters say in every state what the
cached frequencies are, and the aging pass comes by their true average. -/
theorem counters_account [Inhabited Value] (capacity maxAverageNum : Nat) (room : 1 ≤ capacity)
    (ops : List (CacheOp Key Value))
    (keeps : Guarded step KeepsAccount (create capacity maxAverageNum) ops) :
    Always step (fun c => c.Accounts ∧ c.AgesOnAverage) (fun _ => False)
      (create capacity maxAverageNum) ops := by
  refine always_of_guarded (fun c => c.Agrees ∧ c.Accounts ∧ c.capacity = capacity ∧
    c.maxAverageNum = (maxAverageNum : Int)) ?_ ?_ ?_ keeps
  · rintro c ⟨agrees, accounts, -⟩
    exact ⟨accounts, accounts.agesOnAverage agrees⟩
  · rintro c op ⟨agrees, accounts, rfl, same⟩ keeps
    obtain ⟨c', taken, agrees', accounts', capacity, kept⟩ :=
      accounts.step agrees room (by omega) keeps
    rw [taken]
    exact ⟨agrees', accounts', capacity, kept.trans same⟩
  · exact ⟨agrees_of_empty rfl rfl, accounts_of_none rfl rfl rfl, rfl, rfl⟩

instance (c : KLfuCache Key Value) (node : NodePtr) : Decidable (c.AgingIdle node) := by
  unfold AgingIdle
  infer_instance

instance (c : KLfuCache Key Value) : Decidable c.PutAgingDue := by
  unfold PutAgingDue
  infer_instance

instance (c : KLfuCache Key Value) : Decidable c.PutIdle := by
  unfold PutIdle
  infer_instance

instance (c : KLfuCache Key Value) (op : CacheOp Key Value) : Decidable (c.KeepsAccount op) :=
  match op with
  | .put key value order =>
      match found : c.nodeMap.lookup key with
      | some node => decidable_of_iff (c.AgingIdle node) (by simp only [KeepsAccount, found])
      | none => decidable_of_iff c.PutIdle (by simp only [KeepsAccount, found])
  | .get key order =>
      match found : c.nodeMap.lookup key with
      | some node => decidable_of_iff (c.AgingIdle node) (by simp only [KeepsAccount, found])
      | none => isTrue (by simp only [KeepsAccount, found])
  | .purge => decidable_of_iff (c.nodeMap.entries.isEmpty = true) List.isEmpty_iff

/-- Three entries put into a cache of two, one of them read in between. -/
theorem counters_account_three_puts :
    Always step (fun c => c.Accounts ∧ c.AgesOnAverage) (fun _ => False)
      (create 2 10 : KLfuCache String Nat)
      [.put "a" 1 inOrder, .get "a" inOrder, .put "b" 2 inOrder, .put "c" 3 inOrder] :=
  counters_account 2 10 (by decide) _ (by decide +kernel)

/-- After a `purge` the counter still counts the entry that has gone. -/
theorem purged_counter :
    ¬ Always step Accounts (fun _ => False) (create 1 10 : KLfuCache String Nat)
      [.put "a" 1 inOrder, .purge] := by
  intro always
  obtain ⟨c, reached, seen⟩ := (map_ok_iff _ _ _).mp
    (show (run step (create 1 10 : KLfuCache String Nat) [.put "a" 1 inOrder, .purge]).map
      (fun c => (c.curTotalNum, c.freqSum)) = .ok (1, 0) by decide +kernel)
  obtain ⟨total, sum⟩ := Prod.mk.inj seen
  have accounts := (always.target reached).total
  omega

end KamaWebserver.KLfuCache
