import KamaWebserver.LfuPurge
import KamaWebserver.Library.DoublyLinked

set_option autoImplicit false

namespace KamaWebserver

open DoublyLinked

/-- A pointer to a node: one that `putInternal` made, or a dummy of a list. -/
inductive NodeRef
  | node (node : NodePtr)
  | head (list : Nat)
  | tail (list : Nat)
  deriving DecidableEq

/-- A node without `pre` and `next`. -/
structure NodeContent (Key Value : Type) where
  freq : Nat
  key : Key
  value : Value
  deriving Inhabited

/-- A `FreqList` as it is in memory; no call changes its members. -/
structure FreqListObject where
  freq : Nat
  head : NodeRef
  tail : NodeRef

namespace FreqListObject

variable (list : FreqListObject) (links : Links NodeRef)

def isEmpty : Bool := links.next list.head = some list.tail

def getFirstNode : Option NodeRef := links.next list.head

/-- The third of the four writes goes through `tail_->pre`. -/
def addNode (node : NodeRef) : Except Fault (Links NodeRef) :=
  match links.insertBefore list.tail node with
  | some after => .ok after
  | none => .error .nullPointer

/-- Nothing of the list itself is looked at. -/
def removeNode (_list : FreqListObject) (links : Links NodeRef) (node : NodeRef) :
    Links NodeRef :=
  links.unlink node

end FreqListObject

/-- The cache down to its links. `heap` holds the nodes without theirs; those of
`putInternal` and the lists are numbered as they are made. -/
structure LinkedCache (Key Value : Type) where
  capacity : Nat
  minFreq : Nat
  maxAverageNum : Int
  curAverageNum : Int
  curTotalNum : Int
  nodeMap : AList fun _ : Key => NodePtr
  freqToFreqList : AList fun _ : Nat => FreqListObject
  heap : NodeRef → NodeContent Key Value
  links : Links NodeRef
  fresh : NodePtr
  freshList : Nat

namespace LinkedCache

variable {Key Value : Type}

def create [Inhabited Key] [Inhabited Value] (capacity : Nat) (maxAverageNum : Int) :
    LinkedCache Key Value where
  capacity := capacity
  minFreq := int8Max
  maxAverageNum := maxAverageNum
  curAverageNum := 0
  curTotalNum := 0
  nodeMap := ∅
  freqToFreqList := ∅
  heap := fun _ => default
  links := ⟨fun _ => none, fun _ => none⟩
  fresh := 0
  freshList := 0

def size (c : LinkedCache Key Value) : Nat := c.nodeMap.entries.length

/-- `freqToFreqList_[freq]->`: a missing list is a null pointer. -/
def listAt (c : LinkedCache Key Value) (freq : Nat) : Except Fault FreqListObject :=
  match c.freqToFreqList.lookup freq with
  | some list => .ok list
  | none => .error .nullPointer

/-- `freqToFreqList_.find(freq)` finds one. -/
def hasList (c : LinkedCache Key Value) (freq : Nat) : Bool :=
  (c.freqToFreqList.lookup freq).isSome

def setNode (c : LinkedCache Key Value) (node : NodeRef) (content : NodeContent Key Value) :
    LinkedCache Key Value :=
  { c with heap := Function.update c.heap node content }

def setFreq (c : LinkedCache Key Value) (node : NodeRef) (freq : Nat) : LinkedCache Key Value :=
  c.setNode node { c.heap node with freq }

def setValue (c : LinkedCache Key Value) (node : NodeRef) (value : Value) :
    LinkedCache Key Value :=
  c.setNode node { c.heap node with value }

def removeFromFreqList (c : LinkedCache Key Value) (node : NodeRef) :
    Except Fault (LinkedCache Key Value) := do
  let list ← c.listAt (c.heap node).freq
  return { c with links := list.removeNode c.links node }

/-- The loop of `updateMinFreq`, over the lists that are not empty. -/
def leastIndex (links : Links NodeRef) (minFreq : Nat) :
    List ((_ : Nat) × FreqListObject) → Nat
  | [] => minFreq
  | pair :: pairs =>
      leastIndex links (if pair.2.isEmpty links then minFreq else min minFreq pair.1) pairs

def updateMinFreq (c : LinkedCache Key Value) : LinkedCache Key Value :=
  let least := leastIndex c.links int8Max c.freqToFreqList.entries
  { c with minFreq := if least = int8Max then 1 else least }

/-- `curAverageNum_` from the counter and the size. -/
def average (c : LinkedCache Key Value) : Int :=
  if c.nodeMap.entries.isEmpty then 0 else KLfuCache.averageOf c.curTotalNum c.size

def decreaseFreqNum (c : LinkedCache Key Value) (num : Nat) : LinkedCache Key Value :=
  let c := { c with curTotalNum := c.curTotalNum - num }
  { c with curAverageNum := c.average }

/-- The list that a node has left is looked at only when it was the one of `minFreq_`. -/
def raiseMinFreq (c : LinkedCache Key Value) (left : Nat) : Except Fault (LinkedCache Key Value) :=
  if left = c.minFreq then do
    let list ← c.listAt left
    return if list.isEmpty c.links then { c with minFreq := c.minFreq + 1 } else c
  else .ok c

section Lists

variable [Inhabited Key] [Inhabited Value]

/-- `new FreqList(freq)`, with its two default-constructed nodes, and its entry. -/
def createList (c : LinkedCache Key Value) (freq : Nat) : LinkedCache Key Value :=
  let head := NodeRef.head c.freshList
  let tail := NodeRef.tail c.freshList
  let dummy : NodeContent Key Value := ⟨1, default, default⟩
  { c with
    freqToFreqList := c.freqToFreqList.insert freq ⟨freq, head, tail⟩
    heap := Function.update (Function.update c.heap head dummy) tail dummy
    links := c.links.createEmpty head tail
    freshList := c.freshList + 1 }

/-- A list that does not exist is created; the node goes to its end. -/
def addToFreqList (c : LinkedCache Key Value) (node : NodeRef) :
    Except Fault (LinkedCache Key Value) := do
  let freq := (c.heap node).freq
  let c := if c.hasList freq then c else c.createList freq
  let list ← c.listAt freq
  let links ← list.addNode c.links node
  return { c with links }

/-- The body of the loop in `handleOverMaxAverageNum`. -/
def age (c : LinkedCache Key Value) (node : NodeRef) : Except Fault (LinkedCache Key Value) := do
  let c ← c.removeFromFreqList node
  (c.setFreq node (KLfuCache.agedFreq c.maxAverageNum (c.heap node).freq)).addToFreqList node

def ageAll (c : LinkedCache Key Value) : List NodePtr → Except Fault (LinkedCache Key Value)
  | [] => .ok c
  | node :: nodes => do
      let c ← c.age (.node node)
      ageAll c nodes

def handleOverMaxAverageNum (c : LinkedCache Key Value) (order : IterOrder (MapEntry Key)) :
    Except Fault (LinkedCache Key Value) :=
  if c.nodeMap.entries.isEmpty then .ok c
  else do
    let c ← c.ageAll ((order.arrange c.nodeMap.entries).map (·.2))
    return c.updateMinFreq

def addFreqNum (c : LinkedCache Key Value) (order : IterOrder (MapEntry Key)) :
    Except Fault (LinkedCache Key Value) :=
  let c := { c with curTotalNum := c.curTotalNum + 1 }
  let c := { c with curAverageNum := c.average }
  if c.maxAverageNum < c.curAverageNum then c.handleOverMaxAverageNum order else .ok c

def getInternal (c : LinkedCache Key Value) (node : NodeRef) (order : IterOrder (MapEntry Key)) :
    Except Fault (LinkedCache Key Value) := do
  let left := (c.heap node).freq
  let c ← c.removeFromFreqList node
  let c ← (c.setFreq node (left + 1)).addToFreqList node
  let c ← c.raiseMinFreq left
  c.addFreqNum order

variable [DecidableEq Key]

def eraseKey (c : LinkedCache Key Value) (key : Key) : LinkedCache Key Value :=
  { c with nodeMap := c.nodeMap.erase key }

/-- The first node of the list of `minFreq_`, whichever it is. -/
def kickOut (c : LinkedCache Key Value) : Except Fault (LinkedCache Key Value) := do
  let list ← c.listAt c.minFreq
  match list.getFirstNode c.links with
  | none => .error .nullPointer
  | some node =>
      let c ← c.removeFromFreqList node
      return (c.eraseKey (c.heap node).key).decreaseFreqNum (c.heap node).freq

/-- `make_shared<Node>(key, value)`, and its entry in `nodeMap_`. -/
def insertNode (c : LinkedCache Key Value) (key : Key) (value : Value) : LinkedCache Key Value :=
  { c with
    nodeMap := c.nodeMap.insert key c.fresh
    heap := Function.update c.heap (.node c.fresh) ⟨1, key, value⟩
    links := c.links.clear (.node c.fresh)
    fresh := c.fresh + 1 }

def putInternal (c : LinkedCache Key Value) (key : Key) (value : Value)
    (order : IterOrder (MapEntry Key)) : Except Fault (LinkedCache Key Value) := do
  let c ← (if c.size = c.capacity then c.kickOut else pure c)
  let node := NodeRef.node c.fresh
  let c ← (c.insertNode key value).addToFreqList node
  let c ← c.addFreqNum order
  return { c with minFreq := min c.minFreq 1 }

def put (c : LinkedCache Key Value) (key : Key) (value : Value)
    (order : IterOrder (MapEntry Key)) : Except Fault (LinkedCache Key Value) :=
  if c.capacity = 0 then .ok c
  else
    match c.nodeMap.lookup key with
    | some node => (c.setValue (.node node) value).getInternal (.node node) order
    | none => c.putInternal key value order

/-- The value found, if any, and the cache afterwards. -/
def get (c : LinkedCache Key Value) (key : Key) (order : IterOrder (MapEntry Key)) :
    Except Fault (LinkedCache Key Value × Option Value) :=
  match c.nodeMap.lookup key with
  | some node =>
      (c.getInternal (.node node) order).map (·, some (c.heap (.node node)).value)
  | none => .ok (c, none)

/-- Only the two tables are cleared: the lists and their nodes stay in memory. -/
def purge (c : LinkedCache Key Value) : LinkedCache Key Value :=
  { c with nodeMap := ∅, freqToFreqList := ∅ }

def step (c : LinkedCache Key Value) : CacheOp Key Value → Except Fault (LinkedCache Key Value)
  | .put key value order => c.put key value order
  | .get key order => (c.get key order).map (·.1)
  | .purge => .ok c.purge

/-- The results of the `get` calls. -/
def answers (c : LinkedCache Key Value) :
    List (CacheOp Key Value) → Except Fault (List (Option Value))
  | [] => .ok []
  | .put key value order :: ops => do
      let c ← c.put key value order
      answers c ops
  | .get key order :: ops => do
      let (c, result) ← c.get key order
      let results ← answers c ops
      return result :: results
  | .purge :: ops => answers c.purge ops

end Lists

end LinkedCache

end KamaWebserver
