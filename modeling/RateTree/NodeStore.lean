import RateTree.Error
import RateTree.Node

/-!
# Node stores

Each level of the tree has a table of slots, and a node lives in the slot that its identifier names.
The lowest free slot is always taken first. `find?` is the view of a store as a map from
identifiers to nodes.
-/

namespace RateTree

/-- The slots of every level. -/
structure NodeStore where
  slots : PerKind (List (Option Node))
deriving DecidableEq

namespace NodeStore

/-- A store without nodes. -/
def empty : NodeStore :=
  let free (kind : NodeKind) : List (Option Node) := List.replicate kind.capacity none
  ⟨⟨free .root, free .cluster, free .leaf⟩⟩

/-- The node in a slot. -/
def slot (store : NodeStore) (kind : NodeKind) (index : Nat) : Option Node :=
  (store.slots.get kind)[index]?.join

/-- The store with a slot filled or emptied. -/
def setSlot (store : NodeStore) (kind : NodeKind) (index : Nat) (content : Option Node) :
    NodeStore :=
  ⟨store.slots.set kind ((store.slots.get kind).set index content)⟩

/-- The node of an identifier. -/
def find? (store : NodeStore) (id : NodeId) : Option Node :=
  match id.kind? with
  | some kind => store.slot kind id.index
  | none => none

/-- The node with an identifier, which has to exist. -/
def get (store : NodeStore) (id : NodeId) : Except Error Node :=
  match store.find? id with
  | some node => .ok node
  | none => .error (.notFound (.node id))

/-- The store with a change made to the node with an identifier, if it exists. -/
def modify (store : NodeStore) (id : NodeId) (change : Node → Node) : NodeStore :=
  match id.kind?, store.find? id with
  | some kind, some node => store.setSlot kind id.index (some (change node))
  | _, _ => store

/-- The nodes of a level in the order of their identifiers. -/
def nodes (store : NodeStore) (kind : NodeKind) : List Node :=
  (store.slots.get kind).filterMap id

/-- The identifiers of the nodes of a level, in order. -/
def ids (store : NodeStore) (kind : NodeKind) : List NodeId :=
  (store.nodes kind).map Node.id

/-- Every node, level by level in the order of their identifiers. -/
def allNodes (store : NodeStore) : List Node :=
  NodeKind.all.flatMap store.nodes

/-- The identifiers under which two stores hold different nodes, in order. -/
def differences (before after : NodeStore) : List NodeId :=
  (NodeKind.all.flatMap NodeId.slotsOf).filter fun id => before.find? id != after.find? id

/-- Puts a fresh node into the lowest free slot of a level. -/
def allocate (store : NodeStore) (kind : NodeKind) (service : Service) :
    Except Error (NodeId × NodeStore) :=
  match (store.slots.get kind).findIdx? Option.isNone with
  | some index =>
    let id := NodeId.ofSlot kind index
    .ok (id, store.setSlot kind index (some (Node.fresh id kind service)))
  | none => .error (.slotsExhausted kind)

/-- Frees the slot of a node, which must not carry an agreement; the node that was there is
returned. -/
def remove (store : NodeStore) (id : NodeId) : Except Error (Node × NodeStore) :=
  match id.kind?, store.find? id with
  | some kind, some node =>
    if node.configured then .error (.permissionDenied (.nodeHasSla id))
    else .ok (node, store.setSlot kind id.index none)
  | _, _ => .error (.notFound (.node id))

/-- The configured nodes of a level under a parent, in order. -/
def configuredChildren (store : NodeStore) (kind : NodeKind) (parent : NodeId) : List Node :=
  (store.nodes kind).filter fun node => node.configured && node.parent == some parent

/-- Whether a node of a level has its agreement under a parent. -/
def hasConfiguredChild (store : NodeStore) (kind : NodeKind) (parent : NodeId) : Bool :=
  (store.nodes kind).any fun node => node.configured && node.parent == some parent

end NodeStore

end RateTree
