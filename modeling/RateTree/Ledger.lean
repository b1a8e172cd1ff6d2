import RateTree.NodeStore
import RateTree.Profile

/-!
# The budget ledger

A parent's `remaining` is the part of its committed rate that no child has been promised. A child's
committed rate is debited when it is bound, credited when it is unbound, and moved by `adjust` when
it changes, so that at all times what remains and what the children hold add up to the parent's own
committed rate. Every function stays between zero and that rate; the tests below tell when nothing
has to be clamped. A `Posting` is one such change, so that what an operation does to the budgets can
be listed.
-/

namespace RateTree

namespace Node

/-- Whether a node can take a new child at the given rates. -/
def canAfford (parent : Node) (cir pir : Nat) : Bool :=
  cir ≤ parent.remaining && pir ≤ parent.peak

/-- Whether a node can carry a child at new rates, the child's present committed rate counting as
given back. -/
def canAffordUpdate (parent child : Node) (cir pir : Nat) : Bool :=
  cir ≤ parent.remaining + child.cir && pir ≤ parent.peak

/-- Whether a committed rate covers what the node has promised its children. -/
def coversChildren (node : Node) (cir : Nat) : Bool :=
  node.promised ≤ cir

/-- Takes a committed rate out of what remains, or all that remains if it is less. -/
def debit (parent : Node) (cir : Nat) : Node :=
  { parent with remaining := parent.remaining - cir }

/-- Gives a committed rate back, up to the node's own committed rate. -/
def credit (parent : Node) (cir : Nat) : Node :=
  { parent with remaining := min (parent.remaining + cir) parent.cir }

/-- Replaces a child's committed rate by another, within zero and the node's own. -/
def adjust (parent : Node) (oldCir cir : Nat) : Node :=
  { parent with remaining := min (parent.remaining + oldCir - cir) parent.cir }

/-- Gives the node new rates of its own; what its children were promised stays the same. -/
def rebase (node : Node) (oldCir cir pir : Nat) : Node :=
  { node with remaining := cir - (oldCir - node.remaining), peak := pir }

end Node

/-- One change of a node's budget. -/
inductive Posting where
  | debit (cir : Nat)
  | credit (cir : Nat)
  | adjust (oldCir cir : Nat)
  | rebase (oldCir cir pir : Nat)
deriving DecidableEq

/-- Makes a posting on a node. -/
def Posting.apply : Posting → Node → Node
  | .debit cir, node => node.debit cir
  | .credit cir, node => node.credit cir
  | .adjust oldCir cir, node => node.adjust oldCir cir
  | .rebase oldCir cir pir, node => node.rebase oldCir cir pir

namespace NodeStore

/-- The store with a posting made to the node with an identifier. -/
def post (store : NodeStore) (entry : NodeId × Posting) : NodeStore :=
  store.modify entry.1 entry.2.apply

/-- The store with postings made one after the other. -/
def postAll (store : NodeStore) (entries : List (NodeId × Posting)) : NodeStore :=
  entries.foldl post store

end NodeStore

namespace Profile

/-- Whether the rates of a root stay within the largest rate of its service. -/
def withinCeiling (profile : Profile) (service : Service) (cir pir : Nat) : Bool :=
  cir ≤ profile.serviceMax service && pir ≤ profile.serviceMax service

end Profile

end RateTree
