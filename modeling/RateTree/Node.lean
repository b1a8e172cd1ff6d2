import RateTree.Sla

/-!
# Nodes

A node of the tree. Until an agreement is bound to it, a node has no rates and no parent; from then
on it holds the agreement and its own budget: the part of its committed rate that no child has been
promised, and the peak rate that no child may exceed.
-/

namespace RateTree

/-- One node of the tree. -/
structure Node where
  id : NodeId
  kind : NodeKind
  service : Service
  configured : Bool
  sla : Option Sla
  /-- The part of the committed rate that no child has been promised. -/
  remaining : Nat
  peak : Nat
  parent : Option NodeId
deriving DecidableEq

namespace Node

/-- A node without an agreement. -/
def fresh (id : NodeId) (kind : NodeKind) (service : Service) : Node :=
  ⟨id, kind, service, false, none, 0, 0, none⟩

/-- The committed rate of the node's agreement, zero without one. -/
def cir (node : Node) : Nat :=
  match node.sla with
  | some sla => sla.cir
  | none => 0

/-- The part of the committed rate that children have been promised. -/
def promised (node : Node) : Nat := node.cir - node.remaining

/-- The node with an agreement bound to it, its whole committed rate still to be promised. -/
def bind (node : Node) (sla : Sla) (parent : Option NodeId) : Node :=
  { node with configured := true, sla := some sla, remaining := sla.cir, peak := sla.pir, parent }

/-- The node with its agreement taken away. -/
def unbind (node : Node) : Node :=
  { node with configured := false, sla := none, remaining := 0, peak := 0, parent := none }

end Node

end RateTree
