import RateTree.NodeId
import RateTree.PciAddress
import RateTree.Service

/-!
# Service level agreements

An agreement grants a node a committed rate and lets it burst up to a peak rate. The same record
serves as the request a caller makes and as what a configured node keeps.
-/

namespace RateTree

/-- A rate contract for one node. -/
structure Sla where
  /-- The agreement's own identifier, which is that of its node once it is in place. -/
  id : NodeId
  node : NodeId
  /-- The parent node: named by leaf requests, filled in for clusters, absent for roots. -/
  parent : Option NodeId
  kind : NodeKind
  service : Service
  /-- The committed rate. -/
  cir : Nat
  /-- The peak rate. -/
  pir : Nat
  owner : PciAddress
deriving DecidableEq

namespace Sla

/-- The agreement of a root, which has no parent and no function. -/
def root (node : NodeId) (service : Service) (cir pir : Nat) : Sla :=
  ⟨node, node, none, .root, service, cir, pir, ⟨0, 0⟩⟩

/-- The request for a cluster's agreement; its parent follows from the service. -/
def cluster (node : NodeId) (service : Service) (cir pir : Nat) : Sla :=
  ⟨node, node, none, .cluster, service, cir, pir, ⟨0, 0⟩⟩

/-- The request for a leaf's agreement under a cluster. -/
def leaf (node parent : NodeId) (service : Service) (owner : PciAddress) (cir pir : Nat) : Sla :=
  ⟨node, node, some parent, .leaf, service, cir, pir, owner⟩

/-- The request to change the rates of an agreement, and for a leaf its parent if one is named. -/
def update (id : NodeId) (cir pir : Nat) (parent : Option NodeId) : Sla :=
  ⟨id, id, parent, .root, .asym, cir, pir, ⟨0, 0⟩⟩

/-- The agreement with its peak rate raised to the committed rate where it was lower. -/
def raisePeak (sla : Sla) : Sla :=
  { sla with pir := max sla.cir sla.pir }

/-- An agreement at other rates, its peak rate raised to the committed one if it is lower. -/
def atRates (sla : Sla) (cir pir : Nat) : Sla :=
  { sla with cir, pir }.raisePeak

/-- An agreement under another parent. -/
def under (sla : Sla) (parent : Option NodeId) : Sla :=
  { sla with parent }

end Sla

end RateTree
