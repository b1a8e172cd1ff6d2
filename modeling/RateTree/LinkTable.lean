import RateTree.Device

/-!
# Link tables

The hardware learns the shape of the tree from three tables of link registers: each ring points to
a leaf, each leaf to a cluster and each cluster to a root. A register that points somewhere has its
top bit set above the index of the parent; a register that points nowhere is zero.
-/

namespace RateTree

/-- The three link tables. -/
inductive LinkTable where
  | ringToLeaf
  | leafToCluster
  | clusterToRoot
deriving DecidableEq

namespace LinkTable

/-- Every table, from the rings up. -/
def all : List LinkTable := [.ringToLeaf, .leafToCluster, .clusterToRoot]

/-- The offset of a table's first register. -/
def base : LinkTable → Nat
  | .ringToLeaf => 0x508000
  | .leafToCluster => 0x509000
  | .clusterToRoot => 0x508818

/-- How many entries a table has. -/
def length : LinkTable → Nat
  | .ringToLeaf => 64
  | .leafToCluster => 64
  | .clusterToRoot => 16

/-- The name under which a table is listed. -/
def name : LinkTable → String
  | .ringToLeaf => "ring2leaf"
  | .leafToCluster => "leaf2cluster"
  | .clusterToRoot => "cluster2service"

/-- The offset of the register that holds an entry. -/
def offset (table : LinkTable) (index : Nat) : Nat := table.base + index * 4

/-- The value of a link register that points to a parent. -/
def linked (parent : Nat) : UInt32 := 0x80000000 ||| parent.toUInt32

/-- The value of a link register that points nowhere. -/
def unlinked : UInt32 := 0

/-- The index of the parent that a link register points to. -/
def parentOf (value : UInt32) : Nat := value.toNat % 0x80000000

variable {σ : Type} [RegisterAccess σ]

/-- Writes an entry. -/
def set (table : LinkTable) (index : Nat) (value : UInt32) : Action σ Unit :=
  writeRegister (table.offset index) value

/-- Points the rings to a leaf and the leaf to its parent, or a cluster to its parent; a root needs
no link. -/
def link (node : NodeId) (parent : Option NodeId) (rings : List Nat) : Action σ Unit :=
  match node.kind?, parent with
  | none, _ => Action.refuse (.invalidArgument (.unknownNodeId node))
  | some .root, _ => pure ()
  | some kind, none => Action.refuse (.invalidArgument (.unlinkedParent kind node))
  | some .leaf, some parent => do
    Action.forEach rings fun ring => ringToLeaf.set ring (linked node.index)
    leafToCluster.set node.index (linked parent.index)
  | some .cluster, some parent => clusterToRoot.set node.index (linked parent.index)

/-- Takes back what `link` has set. -/
def unlink (node : NodeId) (rings : List Nat) : Action σ Unit :=
  match node.kind? with
  | some .leaf => do
    Action.forEach rings fun ring => ringToLeaf.set ring unlinked
    leafToCluster.set node.index unlinked
  | some .cluster => clusterToRoot.set node.index unlinked
  | some .root | none => pure ()

/-- Points a leaf to another cluster. -/
def relink (leaf cluster : NodeId) : Action σ Unit :=
  leafToCluster.set leaf.index (linked cluster.index)

end LinkTable

end RateTree
