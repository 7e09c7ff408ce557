import RemoteDebugger.Framework.LinkedList
import RemoteDebugger.Framework.Run
import RemoteDebugger.Impl.Cache

/-!
# The request cache as linked nodes

`initCache`, `createCache`, `append_item`, `findPresentInCache`, `remove_item`
and `freecacheDataCacheNode` of `rrdRunCmdThread.c`, on the nodes themselves.
Every operation holds the mutex, so that operations follow one another. A read
or a write through a pointer to no node is `none`.
-/

namespace RRD

open Framework

/-- The strings of a `cacheData`; either may be NULL. -/
structure CacheStrings where
  mdata : Option Str
  issueString : Option Str
  deriving DecidableEq, Repr

/-- The nodes allocated, and the variable `cacheDataNode`. -/
structure CacheList where
  heap : Heap Nat CacheStrings
  cacheDataNode : Option Nat

namespace CacheList

def initCache : CacheList := ⟨fun _ => none, none⟩

/-- `createCache`, where `addr` is what `malloc` returns. -/
def createCache (addr : Option Nat) (pkgData issueTypeData : Option Str) (heap : Heap Nat CacheStrings) :
    Option (Nat × Heap Nat CacheStrings) :=
  addr.map fun a => (a, heap.set a (some ⟨⟨pkgData, issueTypeData⟩, none, none⟩))

def appendItem (addr : Option Nat) (pkgData issueTypeData : Option Str) (s : CacheList) : Option CacheList :=
  match createCache addr pkgData issueTypeData s.heap with
  | none => some s
  | some (tmp, heap) =>
    match s.cacheDataNode with
    | none => some ⟨heap, some tmp⟩
    | some rrdCachecnode => do
      let heap ← heap.store (fun nd => { nd with next := some rrdCachecnode }) tmp
      let heap ← heap.store (fun nd => { nd with prev := some tmp }) rrdCachecnode
      return ⟨heap, some tmp⟩

/-- The loop of `findPresentInCache`, for `fuel` nodes at most. -/
def findFrom (heap : Heap Nat CacheStrings) (pkgData : Str) : Nat → Option Nat → Option (Option Nat)
  | 0, _ => none
  | _ + 1, none => some none
  | fuel + 1, some rrdCachecnode => do
    let node ← heap rrdCachecnode
    if node.val.mdata = some pkgData then some (some rrdCachecnode) else findFrom heap pkgData fuel node.next

def findPresentInCache (fuel : Nat) (pkgData : Str) (s : CacheList) : Option (Option Nat) :=
  findFrom s.heap pkgData fuel s.cacheDataNode

def freecacheDataCacheNode (node : Nat) (s : CacheList) : Option CacheList :=
  (s.heap.free node).map fun heap => { s with heap := heap }

def removeItem (cache : Option Nat) (s : CacheList) : Option CacheList :=
  match cache with
  | none => some s
  | some cache => do
    let node ← s.heap cache
    let s ←
      if s.cacheDataNode = some cache then do
        let heap ← s.heap.storeIf (fun nd => { nd with prev := none }) node.next
        pure (⟨heap, node.next⟩ : CacheList)
      else do
        let heap ← s.heap.storeIf (fun nd => { nd with prev := node.prev }) node.next
        let heap ← heap.storeIf (fun nd => { nd with next := node.next }) node.prev
        pure { s with heap := heap }
    freecacheDataCacheNode cache s

end CacheList

/-! ## Runs -/

/-- An operation on the cache. -/
inductive CacheOp where
  /-- `addr` is what `malloc` returns. -/
  | append (addr : Option Nat) (pkgData issueTypeData : Option Str)
  | find (pkgData : Str)
  | remove (cache : Option Nat)
  deriving DecidableEq, Repr

/-- `malloc` returns no address in use, and only a node of the cache is removed. -/
def CacheOp.Legal (s : CacheList) : CacheOp → Prop
  | .append addr _ _ => ∀ a ∈ addr, s.heap a = none
  | .find _ => True
  | .remove cache => ∀ a ∈ cache, Reaches s.heap s.cacheDataNode a

/-- The state an operation leaves. A lookup changes nothing. -/
def CacheOp.perform (s : CacheList) : CacheOp → Option CacheList
  | .append addr pkgData issueTypeData => s.appendItem addr pkgData issueTypeData
  | .find _ => some s
  | .remove cache => s.removeItem cache

def CacheOp.Step (s : CacheList) (op : CacheOp) (s' : CacheList) : Prop := op.Legal s ∧ op.perform s = some s'

/-! ## The list of the operations -/

/-- What an operation does to the list of entries: an append puts its entry in
front, a removal deletes the entry of that node. -/
def CacheOp.onList (l : List (Nat × CacheStrings)) : CacheOp → List (Nat × CacheStrings)
  | .append addr pkgData issueTypeData => (addr.map fun a => (a, ⟨pkgData, issueTypeData⟩)).toList ++ l
  | .find _ => l
  | .remove cache => l.filter fun e => some e.1 ≠ cache

/-- The entries after some operations, the most recent first. -/
def entries (ops : List CacheOp) : List (Nat × CacheStrings) := ops.foldl CacheOp.onList []

end RRD
