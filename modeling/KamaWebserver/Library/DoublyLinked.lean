import Mathlib.Data.List.Chain
import Mathlib.Data.List.Nodup
import Mathlib.Logic.Function.Basic
import Mathlib.Tactic.Common

set_option autoImplicit false

/- Doubly linked lists between a dummy head and a dummy tail. An item points at the items
before and after it; a null pointer is `none`. -/
namespace DoublyLinked

variable {ptr : Type*}

structure Links (ptr : Type*) where
  pre : ptr → Option ptr
  next : ptr → Option ptr

namespace Links

/-- Two neighbours point at each other. -/
def Joined (links : Links ptr) (first second : ptr) : Prop :=
  links.next first = some second ∧ links.pre second = some first

/-- The items between the two dummies, in order, with no link that leads outside. -/
structure Spans (links : Links ptr) (head : ptr) (items : List ptr) (tail : ptr) : Prop where
  joined : List.IsChain links.Joined (head :: (items ++ [tail]))
  distinct : (head :: (items ++ [tail])).Nodup
  first : links.pre head = none
  last : links.next tail = none

/-- The same links the other way round. -/
def flip (links : Links ptr) : Links ptr := ⟨links.next, links.pre⟩

/-- The items met on the way from `start` to `stop`, if it ends within the bound. -/
def walk [DecidableEq ptr] (step : ptr → Option ptr) (stop : ptr) : Nat → ptr → Option (List ptr)
  | 0, _ => none
  | bound + 1, start =>
      match step start with
      | none => none
      | some item =>
          if item = stop then some [] else (walk step stop bound item).map (item :: ·)

variable {links links' : Links ptr} {head tail node : ptr} {items : List ptr}

/-- The links inside a chain are those its items start, and those they end. -/
theorem chain_congr {chain : List ptr} (joined : List.IsChain links.Joined chain)
    (next : ∀ item ∈ chain.dropLast, links'.next item = links.next item)
    (pre : ∀ item ∈ chain.tail, links'.pre item = links.pre item) :
    List.IsChain links'.Joined chain := by
  induction chain with
  | nil => exact .nil
  | cons first rest ih =>
      cases rest with
      | nil => exact .singleton _
      | cons second rest =>
          rw [List.isChain_cons_cons] at joined ⊢
          refine ⟨⟨?_, ?_⟩, ih joined.2 (fun item inside => next item ?_) fun item inside => ?_⟩
          · rw [next first (by simp), joined.1.1]
          · rw [pre second (by simp), joined.1.2]
          · rw [List.dropLast_cons_cons]
            exact List.mem_cons_of_mem _ inside
          · exact pre item (List.mem_cons_of_mem _ inside)

/-- Links elsewhere do not matter. -/
theorem Spans.congr (spans : links.Spans head items tail)
    (same : ∀ item ∈ head :: (items ++ [tail]),
      links'.pre item = links.pre item ∧ links'.next item = links.next item) :
    links'.Spans head items tail where
  joined := chain_congr spans.joined
    (fun item inside => (same item (List.dropLast_subset _ inside)).2)
    fun item inside => (same item (List.mem_of_mem_tail inside)).1
  distinct := spans.distinct
  first := by rw [(same head (by simp)).1, spans.first]
  last := by rw [(same tail (by simp)).2, spans.last]

theorem Spans.flip (spans : links.Spans head items tail) :
    links.flip.Spans tail items.reverse head := by
  have turned : tail :: (items.reverse ++ [head]) = (head :: (items ++ [tail])).reverse := by simp
  refine ⟨?_, ?_, spans.last, spans.first⟩
  · rw [turned, List.isChain_reverse]
    exact spans.joined.imp fun first second joined => ⟨joined.2, joined.1⟩
  · rw [turned, List.nodup_reverse]
    exact spans.distinct

/-- What follows the head. -/
theorem Spans.next_head (spans : links.Spans head items tail) :
    links.next head = some (items.headD tail) := by
  have joined := spans.joined
  cases items with
  | nil => exact (List.isChain_cons_cons.mp joined).1.1
  | cons first rest => exact (List.isChain_cons_cons.mp joined).1.1

/-- Empty is when the head points at the tail. -/
theorem Spans.isEmpty_iff (spans : links.Spans head items tail) :
    links.next head = some tail ↔ items = [] := by
  rw [spans.next_head]
  cases items with
  | nil => simp
  | cons first rest =>
      have distinct := spans.distinct
      simp only [List.headD_cons, Option.some.injEq, reduceCtorEq, iff_false]
      rintro rfl
      simp at distinct

theorem walk_chain [DecidableEq ptr] {bound : Nat}
    (joined : List.IsChain links.Joined (head :: (items ++ [tail])))
    (outside : tail ∉ items) (enough : items.length < bound) :
    walk links.next tail bound head = some items := by
  induction items generalizing head bound with
  | nil =>
      obtain ⟨bound, rfl⟩ := Nat.exists_eq_succ_of_ne_zero (Nat.ne_of_gt enough)
      have ends := (List.isChain_cons_cons.mp joined).1.1
      simp [walk, ends]
  | cons first rest ih =>
      obtain ⟨bound, rfl⟩ := Nat.exists_eq_succ_of_ne_zero (Nat.ne_of_gt (Nat.zero_lt_of_lt enough))
      obtain ⟨⟨goes, _⟩, later⟩ := List.isChain_cons_cons.mp joined
      rw [List.mem_cons, not_or] at outside
      have shorter : rest.length < bound := by simpa using enough
      simp only [walk, goes, Ne.symm outside.1, ↓reduceIte, ih later outside.2 shorter,
        Option.map_some]

/-- Forwards the links spell the items. -/
theorem Spans.walk_next [DecidableEq ptr] (spans : links.Spans head items tail) {bound : Nat}
    (enough : items.length < bound) : walk links.next tail bound head = some items := by
  refine walk_chain spans.joined ?_ enough
  have distinct := (List.nodup_cons.mp spans.distinct).2
  exact fun inside => (List.disjoint_of_nodup_append distinct) inside (by simp)

/-- Backwards they spell them from the end. -/
theorem Spans.walk_pre [DecidableEq ptr] (spans : links.Spans head items tail) {bound : Nat}
    (enough : items.length < bound) : walk links.pre head bound tail = some items.reverse :=
  spans.flip.walk_next (by simpa using enough)

/-- A non-empty list as its front and its last item. -/
theorem exists_snoc (first : ptr) (rest : List ptr) :
    ∃ front last, first :: rest = front ++ [last] :=
  ⟨_, _, (List.dropLast_append_getLast (List.cons_ne_nil first rest)).symm⟩

/-- Two chains are joined; the links inside them stay. -/
theorem splice {front back : List ptr} {before behind : ptr}
    (front_joined : List.IsChain links.Joined (front ++ [before]))
    (back_joined : List.IsChain links.Joined (behind :: back))
    (joined : links'.Joined before behind)
    (next : ∀ item ∈ front ++ (behind :: back).dropLast, links'.next item = links.next item)
    (pre : ∀ item ∈ (front ++ [before]).tail ++ back, links'.pre item = links.pre item) :
    List.IsChain links'.Joined (front ++ before :: behind :: back) := by
  rw [List.isChain_append_cons_cons]
  refine ⟨chain_congr front_joined (fun item inside => next item ?_)
      (fun item inside => pre item ?_),
    joined, chain_congr back_joined (fun item inside => next item ?_)
      fun item inside => pre item ?_⟩
  · rw [List.dropLast_concat] at inside
    exact List.mem_append_left _ inside
  · exact List.mem_append_left _ inside
  · exact List.mem_append_right _ inside
  · exact List.mem_append_right _ inside

variable [DecidableEq ptr]

def setPre (links : Links ptr) (item : ptr) (target : Option ptr) : Links ptr :=
  { links with pre := Function.update links.pre item target }

def setNext (links : Links ptr) (item : ptr) (target : Option ptr) : Links ptr :=
  { links with next := Function.update links.next item target }

/-- No links from the item. -/
def clear (links : Links ptr) (item : ptr) : Links ptr :=
  (links.setPre item none).setNext item none

/-- A head and a tail that point at each other only. -/
def createEmpty (links : Links ptr) (head tail : ptr) : Links ptr :=
  (((links.clear head).clear tail).setNext head (some tail)).setPre tail (some head)

/-- `node` becomes the item in front of `tail`; the last write but one goes through a pointer. -/
def insertBefore (links : Links ptr) (tail node : ptr) : Option (Links ptr) :=
  let links := (links.setPre node (links.pre tail)).setNext node (some tail)
  match links.pre tail with
  | some last => some ((links.setNext last (some node)).setPre tail (some node))
  | none => none

/-- An item with both neighbours leaves them to each other; any other is left alone. -/
def unlink (links : Links ptr) (node : ptr) : Links ptr :=
  match links.pre node, links.next node with
  | some before, some after =>
      ((links.setNext before (some after)).setPre after (some before)).clear node
  | _, _ => links

theorem createEmpty_spans (links : Links ptr) (different : head ≠ tail) :
    (links.createEmpty head tail).Spans head [] tail := by
  refine ⟨?_, by simpa using different, ?_, ?_⟩
  · simp only [List.nil_append, List.isChain_cons_cons, List.isChain_singleton, and_true]
    exact ⟨by simp [createEmpty, setPre, setNext], by simp [createEmpty, setPre]⟩
  · simp [createEmpty, clear, setPre, setNext, different]
  · simp [createEmpty, clear, setPre, setNext, Ne.symm different]

theorem createEmpty_elsewhere (links : Links ptr) {item : ptr} (notHead : item ≠ head)
    (notTail : item ≠ tail) :
    (links.createEmpty head tail).pre item = links.pre item ∧
      (links.createEmpty head tail).next item = links.next item := by
  simp [createEmpty, clear, setPre, setNext, notHead, notTail]

theorem clear_elsewhere (links : Links ptr) {item : ptr} (different : item ≠ node) :
    (links.clear node).pre item = links.pre item ∧
      (links.clear node).next item = links.next item := by
  simp [clear, setPre, setNext, different]

/-- Putting an item in front of the tail puts it at the end of the items. -/
theorem Spans.insertBefore (spans : links.Spans head items tail)
    (outside : node ∉ head :: (items ++ [tail])) :
    ∃ after, links.insertBefore tail node = some after ∧
      after.Spans head (items ++ [node]) tail ∧
      ∀ item ∉ head :: (items ++ [node, tail]),
        after.pre item = links.pre item ∧ after.next item = links.next item := by
  obtain ⟨front, last, split⟩ := exists_snoc head items
  have whole : head :: (items ++ [tail]) = front ++ last :: tail :: [] := by
    rw [← List.cons_append, split, List.append_assoc]
    rfl
  have spelled : head :: (items ++ [node] ++ [tail]) = front ++ last :: node :: [tail] := by
    rw [List.append_assoc, ← List.cons_append, split, List.append_assoc]
    rfl
  have joined := spans.joined
  have distinct := spans.distinct
  rw [whole] at joined distinct outside
  obtain ⟨before, ⟨-, linked⟩, -⟩ := List.isChain_append_cons_cons.mp joined
  have spread : (front ++ last :: node :: [tail]).Nodup := by
    simp only [List.nodup_append, List.nodup_cons, List.mem_append, List.mem_cons]
      at distinct outside ⊢
    grind
  have apart : tail ≠ node ∧ last ≠ node ∧ last ≠ tail := by
    simp only [List.nodup_append, List.nodup_cons, List.mem_cons] at spread
    grind
  obtain ⟨tailNode, lastNode, lastTail⟩ := apart
  have beforeNode : ∀ item ∈ front ++ [last], item ≠ node := by
    rintro item early rfl
    simp only [List.mem_append, List.mem_cons] at early outside
    tauto
  have beforeTail : ∀ item ∈ front ++ [last], item ≠ tail := by
    rintro item early rfl
    rw [List.append_cons] at distinct
    exact List.disjoint_of_nodup_append distinct early List.mem_cons_self
  have frontLast : ∀ item ∈ front, item ≠ last := by
    rintro item early rfl
    exact List.disjoint_of_nodup_append distinct early List.mem_cons_self
  have kept : (Function.update links.pre node (links.pre tail)) tail = some last := by
    rw [Function.update_of_ne tailNode, linked]
  let after : Links ptr :=
    (((links.setPre node (links.pre tail)).setNext node (some tail)).setNext last
      (some node)).setPre tail (some node)
  have others : ∀ item, item ≠ node → (item ≠ tail → after.pre item = links.pre item) ∧
      (item ≠ last → after.next item = links.next item) := by
    intro item notNode
    exact ⟨fun notTail => by simp [after, setPre, setNext, notNode, notTail],
      fun notLast => by simp [after, setPre, setNext, notNode, notLast]⟩
  refine ⟨after, ?_, ⟨?_, ?_, ?_, ?_⟩, ?_⟩
  · simp only [Links.insertBefore, setPre, setNext, kept]
    rfl
  · -- First the joint in front of the new item, then the one behind it.
    have ended : List.IsChain after.Joined (front ++ last :: node :: []) := by
      refine splice before (.singleton node) ⟨?_, ?_⟩ (fun item inside => ?_) fun item inside => ?_
      · simp [after, setPre, setNext]
      · simp [after, setPre, setNext, Ne.symm tailNode, linked]
      · have early : item ∈ front := by simpa using inside
        exact (others item (beforeNode item (List.mem_append_left _ early))).2
          (frontLast item early)
      · have early : item ∈ front ++ [last] := List.mem_of_mem_tail (by simpa using inside)
        exact (others item (beforeNode item early)).1 (beforeTail item early)
    rw [spelled, List.append_cons]
    refine splice (by simpa using ended) (.singleton tail) ⟨?_, ?_⟩ (fun _ _ => rfl) fun _ _ => rfl
    · simp [after, setPre, setNext, Ne.symm lastNode]
    · simp [after, setPre, setNext]
  · rw [spelled]
    exact spread
  · have member : head ∈ front ++ [last] := by simp [← split]
    rw [(others head (beforeNode head member)).1 (beforeTail head member), spans.first]
  · rw [(others tail tailNode).2 (Ne.symm lastTail), spans.last]
  · intro item elsewhere
    rw [List.append_cons, ← List.cons_append, ← List.cons_append, split] at elsewhere
    simp only [List.mem_append, List.mem_singleton, not_or] at elsewhere
    obtain ⟨⟨⟨-, notLast⟩, notNode⟩, notTail⟩ := elsewhere
    exact ⟨(others item notNode).1 notTail, (others item notNode).2 notLast⟩

/-- Unlinking an item takes it out of the items and leaves it without links. -/
theorem Spans.unlink (spans : links.Spans head items tail) (inside : node ∈ items) :
    (links.unlink node).Spans head (items.erase node) tail ∧
      ((links.unlink node).pre node = none ∧ (links.unlink node).next node = none) ∧
      ∀ item ∉ head :: (items ++ [tail]),
        (links.unlink node).pre item = links.pre item ∧
          (links.unlink node).next item = links.next item := by
  obtain ⟨one, two, rfl⟩ := List.append_of_mem inside
  obtain ⟨front, before, split⟩ := exists_snoc head one
  obtain ⟨behind, back, rest⟩ : ∃ behind back, two ++ [tail] = behind :: back := by
    cases two with
    | nil => exact ⟨tail, [], rfl⟩
    | cons first two => exact ⟨first, two ++ [tail], rfl⟩
  have whole : head :: (one ++ node :: two ++ [tail]) =
      front ++ before :: node :: behind :: back := by
    rw [List.append_assoc, ← List.cons_append, split, List.cons_append, rest, List.append_assoc]
    rfl
  have joined := spans.joined
  have distinct := spans.distinct
  rw [whole] at joined distinct
  obtain ⟨front_joined, entered, later⟩ := List.isChain_append_cons_cons.mp joined
  obtain ⟨left, back_joined⟩ := List.isChain_cons_cons.mp later
  have unlinked : links.unlink node =
      ((links.setNext before (some behind)).setPre behind (some before)).clear node := by
    unfold Links.unlink
    rw [entered.2, left.1]
  have early : node ∉ one := by
    intro again
    have member : node ∈ front ++ [before] := by
      rw [← split]
      exact List.mem_cons_of_mem _ again
    rw [List.append_cons] at distinct
    exact List.disjoint_of_nodup_append distinct member List.mem_cons_self
  have erased : (one ++ node :: two).erase node = one ++ two := by
    rw [List.erase_append_right _ early, List.erase_cons_head]
  have spelled : head :: (one ++ two ++ [tail]) = front ++ before :: behind :: back := by
    rw [List.append_assoc, ← List.cons_append, split, rest, List.append_assoc]
    rfl
  have shorter : (front ++ before :: behind :: back).Nodup :=
    distinct.sublist (List.Sublist.append_left (by simp) front)
  have apart : ∀ item ∈ front ++ before :: behind :: back, item ≠ node := by
    simp only [List.nodup_append, List.nodup_cons, List.mem_append, List.mem_cons] at distinct ⊢
    grind
  have notBefore : ∀ item ∈ front ++ behind :: back, item ≠ before := by
    simp only [List.nodup_append, List.nodup_cons, List.mem_append, List.mem_cons] at shorter ⊢
    grind
  have notBehind : ∀ item ∈ front ++ before :: back, item ≠ behind := by
    simp only [List.nodup_append, List.nodup_cons, List.mem_append, List.mem_cons] at shorter ⊢
    grind
  have others : ∀ item, item ≠ node →
      (item ≠ behind → (links.unlink node).pre item = links.pre item) ∧
      (item ≠ before → (links.unlink node).next item = links.next item) := by
    intro item notNode
    rw [unlinked]
    exact ⟨fun notBehind => by simp [clear, setPre, setNext, notNode, notBehind],
      fun notBefore => by simp [clear, setPre, setNext, notNode, notBefore]⟩
  have joint : (links.unlink node).Joined before behind := by
    have one := apart before (by simp)
    have two := apart behind (by simp)
    rw [unlinked]
    exact ⟨by simp [clear, setPre, setNext, one], by simp [clear, setPre, setNext, two]⟩
  rw [erased]
  refine ⟨⟨?_, ?_, ?_, ?_⟩, ?_, ?_⟩
  · rw [spelled]
    refine splice front_joined back_joined joint (fun item inside => ?_) fun item inside => ?_
    · have member : item ∈ front ++ behind :: back := by
        rcases List.mem_append.mp inside with first | second
        · exact List.mem_append_left _ first
        · exact List.mem_append_right _ (List.dropLast_subset _ second)
      exact (others item (apart item (by grind))).2 (notBefore item member)
    · have member : item ∈ front ++ before :: back := by
        rcases List.mem_append.mp inside with first | second
        · have early := List.mem_of_mem_tail first
          grind
        · grind
      exact (others item (apart item (by grind))).1 (notBehind item member)
  · rw [spelled]
    exact shorter
  · have member : head ∈ front ++ [before] := by simp [← split]
    rw [(others head (apart head (by grind))).1 (notBehind head (by grind)), spans.first]
  · have member : tail ∈ behind :: back := by simp [← rest]
    rw [(others tail (apart tail (by grind))).2 (notBefore tail (by grind)), spans.last]
  · rw [unlinked]
    exact ⟨by simp [clear, setPre, setNext], by simp [clear, setPre, setNext]⟩
  · intro item elsewhere
    rw [whole] at elsewhere
    simp only [List.mem_append, List.mem_cons, not_or] at elsewhere
    obtain ⟨-, notBefore, notNode, notBehind, -⟩ := elsewhere
    exact ⟨(others item notNode).1 notBehind, (others item notNode).2 notBefore⟩

/-- The tail itself has nothing behind it, so nothing happens. -/
theorem Spans.unlink_tail (spans : links.Spans head items tail) : links.unlink tail = links := by
  unfold Links.unlink
  rw [spans.last]
  cases links.pre tail <;> rfl

end Links

end DoublyLinked
