import RateTree.NodeId

/-!
# Census

How many nodes of each level exist and how many of them carry an agreement.
-/

namespace RateTree

/-- The numbers of nodes and of agreements on each level. -/
structure Census where
  nodes : PerKind Nat
  slas : PerKind Nat
deriving DecidableEq

namespace Census

/-- The census of nothing. -/
def zero : Census := ⟨⟨0, 0, 0⟩, ⟨0, 0, 0⟩⟩

/-- Counts one node more. -/
def addNode (census : Census) (kind : NodeKind) : Census :=
  { census with nodes := census.nodes.set kind (census.nodes.get kind + 1) }

/-- Counts a node less; a count of zero stays. -/
def removeNode (census : Census) (kind : NodeKind) : Census :=
  { census with nodes := census.nodes.set kind (census.nodes.get kind - 1) }

/-- Counts one agreement more. -/
def addSla (census : Census) (kind : NodeKind) : Census :=
  { census with slas := census.slas.set kind (census.slas.get kind + 1) }

/-- Counts an agreement less; a count of zero stays. -/
def removeSla (census : Census) (kind : NodeKind) : Census :=
  { census with slas := census.slas.set kind (census.slas.get kind - 1) }

end Census

end RateTree
