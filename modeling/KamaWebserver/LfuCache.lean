import KamaWebserver.Basic
import Mathlib.Data.List.AList
import Mathlib.Logic.Function.Basic

set_option autoImplicit false

namespace KamaWebserver

/-- A node of a frequency list. `joined` is not in the source: it is the time of the
last `addNode`. -/
structure Node (Key Value : Type) where
  freq : Nat
  key : Key
  value : Value
  joined : Nat
  deriving Inhabited

abbrev NodePtr := Nat

/-- `INT8_MAX`, where the search for the least frequency starts. -/
def int8Max : Nat := 127

/-- The nodes of one frequency between the dummy head and the dummy tail. -/
abbrev FreqList := List NodePtr

/-- The order in which an iteration over a hash table meets its entries. -/
structure IterOrder (α : Type) where
  arrange : List α → List α
  perm : ∀ entries, (arrange entries).Perm entries

/-- `capacity_` and the other integers are exact. `heap` holds the nodes by their
pointers, of which those below `fresh` are taken; `clock` is the time of `joined`. -/
structure KLfuCache (Key Value : Type) where
  capacity : Nat
  minFreq : Nat
  maxAverageNum : Int
  curAverageNum : Int
  curTotalNum : Int
  nodeMap : AList fun _ : Key => NodePtr
  freqToFreqList : AList fun _ : Nat => FreqList
  heap : NodePtr → Node Key Value
  fresh : NodePtr
  clock : Nat

/-- The entries of `nodeMap_`. -/
abbrev MapEntry (Key : Type) := (_ : Key) × NodePtr

namespace KLfuCache

variable {Key Value : Type} [DecidableEq Key]

def create [Inhabited Key] [Inhabited Value] (capacity : Nat) (maxAverageNum : Int) :
    KLfuCache Key Value where
  capacity := capacity
  minFreq := int8Max
  maxAverageNum := maxAverageNum
  curAverageNum := 0
  curTotalNum := 0
  nodeMap := ∅
  freqToFreqList := ∅
  heap := fun _ => default
  fresh := 0
  clock := 0

def size (c : KLfuCache Key Value) : Nat := c.nodeMap.entries.length

/-- `freqToFreqList_[freq]->`: a missing list is a null pointer. -/
def listAt (c : KLfuCache Key Value) (freq : Nat) : Except Fault FreqList :=
  match c.freqToFreqList.lookup freq with
  | some list => .ok list
  | none => .error .nullPointer

def setNode (c : KLfuCache Key Value) (node : NodePtr) (content : Node Key Value) :
    KLfuCache Key Value :=
  { c with heap := Function.update c.heap node content }

def setFreq (c : KLfuCache Key Value) (node : NodePtr) (freq : Nat) : KLfuCache Key Value :=
  c.setNode node { c.heap node with freq }

def setValue (c : KLfuCache Key Value) (node : NodePtr) (value : Value) : KLfuCache Key Value :=
  c.setNode node { c.heap node with value }

def setList (c : KLfuCache Key Value) (freq : Nat) (list : FreqList) : KLfuCache Key Value :=
  { c with freqToFreqList := c.freqToFreqList.insert freq list }

/-- A node is linked into the list of its frequency, so `removeNode` takes it from there. -/
def removeFromFreqList (c : KLfuCache Key Value) (node : NodePtr) :
    Except Fault (KLfuCache Key Value) := do
  let freq := (c.heap node).freq
  let list ← c.listAt freq
  return c.setList freq (list.erase node)

/-- A list that does not exist is created; the node goes to its end. -/
def addToFreqList (c : KLfuCache Key Value) (node : NodePtr) : KLfuCache Key Value :=
  let freq := (c.heap node).freq
  let list := (c.freqToFreqList.lookup freq).getD []
  let c := c.setList freq (list ++ [node])
  let c := c.setNode node { c.heap node with joined := c.clock }
  { c with clock := c.clock + 1 }

/-- The loop of `updateMinFreq`, over the lists that are not empty. -/
def leastIndex (minFreq : Nat) : List ((_ : Nat) × FreqList) → Nat
  | [] => minFreq
  | pair :: pairs => leastIndex (if pair.2.isEmpty then minFreq else min minFreq pair.1) pairs

def updateMinFreq (c : KLfuCache Key Value) : KLfuCache Key Value :=
  let least := leastIndex int8Max c.freqToFreqList.entries
  { c with minFreq := if least = int8Max then 1 else least }

/-- A frequency after the aging pass; the division truncates. -/
def agedFreq (maxAverageNum : Int) (freq : Nat) : Nat :=
  (max 1 ((freq : Int) - maxAverageNum.tdiv 2)).toNat

/-- The body of the loop in `handleOverMaxAverageNum`. -/
def age (c : KLfuCache Key Value) (node : NodePtr) : Except Fault (KLfuCache Key Value) := do
  let c ← c.removeFromFreqList node
  return (c.setFreq node (agedFreq c.maxAverageNum (c.heap node).freq)).addToFreqList node

def ageAll (c : KLfuCache Key Value) : List NodePtr → Except Fault (KLfuCache Key Value)
  | [] => .ok c
  | node :: nodes => do
      let c ← c.age node
      ageAll c nodes

def handleOverMaxAverageNum (c : KLfuCache Key Value) (order : IterOrder (MapEntry Key)) :
    Except Fault (KLfuCache Key Value) :=
  if c.nodeMap.entries.isEmpty then .ok c
  else do
    let c ← c.ageAll ((order.arrange c.nodeMap.entries).map (·.2))
    return c.updateMinFreq

/-- `curTotalNum_ / nodeMap_.size()` as an int. The division is one of `size_t`, which a
negative counter becomes modulo 2^64. -/
def averageOf (total : Int) (size : Nat) : Int :=
  if 0 ≤ total then total / size else (total % sizeModulus / size).bmod (2 ^ 32)

/-- `curAverageNum_` from the counter and the size. -/
def average (c : KLfuCache Key Value) : Int :=
  if c.nodeMap.entries.isEmpty then 0 else averageOf c.curTotalNum c.size

def addFreqNum (c : KLfuCache Key Value) (order : IterOrder (MapEntry Key)) :
    Except Fault (KLfuCache Key Value) :=
  let c := { c with curTotalNum := c.curTotalNum + 1 }
  let c := { c with curAverageNum := c.average }
  if c.maxAverageNum < c.curAverageNum then c.handleOverMaxAverageNum order else .ok c

def decreaseFreqNum (c : KLfuCache Key Value) (num : Nat) : KLfuCache Key Value :=
  let c := { c with curTotalNum := c.curTotalNum - num }
  { c with curAverageNum := c.average }

def eraseKey (c : KLfuCache Key Value) (key : Key) : KLfuCache Key Value :=
  { c with nodeMap := c.nodeMap.erase key }

/-- The first node of an empty list is its dummy tail, a default-constructed node of
frequency 1 that no list ever links. -/
def kickOut [Inhabited Key] (c : KLfuCache Key Value) : Except Fault (KLfuCache Key Value) := do
  let list ← c.listAt c.minFreq
  match list.head? with
  | some node =>
      let c ← c.removeFromFreqList node
      return (c.eraseKey (c.heap node).key).decreaseFreqNum (c.heap node).freq
  | none =>
      let _ ← c.listAt 1
      return (c.eraseKey default).decreaseFreqNum 1

/-- The list a node has left is looked at only when it was the one of `minFreq_`. -/
def raiseMinFreq (c : KLfuCache Key Value) (left : Nat) : Except Fault (KLfuCache Key Value) :=
  if left = c.minFreq then do
    let list ← c.listAt left
    return if list.isEmpty then { c with minFreq := c.minFreq + 1 } else c
  else .ok c

def getInternal (c : KLfuCache Key Value) (node : NodePtr) (order : IterOrder (MapEntry Key)) :
    Except Fault (KLfuCache Key Value) := do
  let left := (c.heap node).freq
  let c ← c.removeFromFreqList node
  let c := (c.setFreq node (left + 1)).addToFreqList node
  let c ← c.raiseMinFreq left
  c.addFreqNum order

/-- `make_shared<Node>(key, value)`, and its entry in `nodeMap_`. -/
def insertNode (c : KLfuCache Key Value) (key : Key) (value : Value) : KLfuCache Key Value :=
  let c := { c with nodeMap := c.nodeMap.insert key c.fresh }
  let c := c.setNode c.fresh ⟨1, key, value, 0⟩
  { c with fresh := c.fresh + 1 }

def putInternal [Inhabited Key] (c : KLfuCache Key Value) (key : Key) (value : Value)
    (order : IterOrder (MapEntry Key)) : Except Fault (KLfuCache Key Value) := do
  let c ← (if c.size = c.capacity then c.kickOut else pure c)
  let node := c.fresh
  let c ← ((c.insertNode key value).addToFreqList node).addFreqNum order
  return { c with minFreq := min c.minFreq 1 }

def put [Inhabited Key] (c : KLfuCache Key Value) (key : Key) (value : Value)
    (order : IterOrder (MapEntry Key)) : Except Fault (KLfuCache Key Value) :=
  if c.capacity = 0 then .ok c
  else
    match c.nodeMap.lookup key with
    | some node => (c.setValue node value).getInternal node order
    | none => c.putInternal key value order

/-- The value found, if any, and the cache afterwards. -/
def get (c : KLfuCache Key Value) (key : Key) (order : IterOrder (MapEntry Key)) :
    Except Fault (KLfuCache Key Value × Option Value) :=
  match c.nodeMap.lookup key with
  | some node => (c.getInternal node order).map (·, some (c.heap node).value)
  | none => .ok (c, none)

/-- Only the two tables are cleared. -/
def purge (c : KLfuCache Key Value) : KLfuCache Key Value :=
  { c with nodeMap := ∅, freqToFreqList := ∅ }

end KLfuCache

/-- The calls a user of the cache makes, each with the order of the iteration over
`nodeMap_` it may cause. -/
inductive CacheOp (Key Value : Type)
  | put (key : Key) (value : Value) (order : IterOrder (MapEntry Key))
  | get (key : Key) (order : IterOrder (MapEntry Key))
  | purge

namespace KLfuCache

variable {Key Value : Type} [DecidableEq Key] [Inhabited Key]

def step (c : KLfuCache Key Value) : CacheOp Key Value → Except Fault (KLfuCache Key Value)
  | .put key value order => c.put key value order
  | .get key order => (c.get key order).map (·.1)
  | .purge => .ok c.purge

end KLfuCache

end KamaWebserver
