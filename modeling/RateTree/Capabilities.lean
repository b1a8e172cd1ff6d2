import RateTree.Tree

/-!
# Capabilities

What a device can still grant: for each service the largest rate and what its clusters have not yet
promised, and how many agreements its functions may hold.
-/

namespace RateTree

/-- What a service can still grant. -/
structure ServiceCapability where
  service : Service
  /-- The largest rate, zero while the service has no cluster. -/
  maxRate : Nat
  /-- What the service's clusters have not promised to leaves. -/
  availableRate : Nat
deriving DecidableEq

/-- What a device can still grant. -/
structure Capabilities where
  /-- The services with a root, in the order of the roots. -/
  services : List ServiceCapability
  /-- Agreements of leaves there may be: one for each function and service. -/
  maxSlas : Nat
  usedSlas : Nat
  /-- Agreements of leaves there may be besides. -/
  availableSlas : Nat
deriving DecidableEq

namespace Tree

/-- What a tree offers for a service. The rates that its clusters have left are added up to at most
32 bits. -/
def serviceCapability (tree : Tree) (service : Service) : ServiceCapability :=
  let clusters := (tree.nodes.nodes .cluster).filter fun node => node.service == service
  { service
    maxRate := if clusters.isEmpty then 0 else tree.profile.serviceMax service
    availableRate := clusters.foldl (fun sum node => Word.saturate 32 (sum + node.remaining)) 0 }

/-- What the device can still grant. -/
def capabilities (tree : Tree) : Capabilities :=
  let maxSlas := Word.saturate 32 (tree.config.services.length * tree.config.enabledVfs)
  let usedSlas := tree.census.slas.leaf
  { services := tree.roots.toList.map fun entry => tree.serviceCapability entry.1
    maxSlas
    usedSlas
    availableSlas := maxSlas - usedSlas }

/-- The agreements of all leaves, service by service in the order of the roots. -/
def userSlas (tree : Tree) : List Sla :=
  tree.roots.toList.flatMap fun (service, root) =>
    if (tree.nodes.find? root).any Node.configured then
      (tree.nodes.nodes .leaf).filterMap fun node =>
        if node.configured && node.service == service then node.sla else none
    else []

/-- The agreement with the identifiers of the leaf and the cluster that were made for its function
and service when the limiter came up. -/
def setNodeId (tree : Tree) (sla : Sla) : Except Error Sla := do
  let vf ← sla.owner.checkedVf tree.config.totalVfs
  let root ← tree.rootOf sla.service
  let leaf := NodeId.ofSlot .leaf (root.index * tree.config.totalVfs + vf)
  let cluster := NodeId.ofSlot .cluster root.index
  return { sla with node := leaf, id := leaf, kind := .leaf, parent := some cluster }

/-- The request for the next leaf of a service, on behalf of a function. -/
def leafRequest (tree : Tree) (owner : PciAddress) (service : Service) (cir pir : Nat) :
    Except Error Sla :=
  tree.setNodeId (.leaf (.ofSlot .leaf 0) (.ofSlot .cluster 0) service owner cir pir)

end Tree

namespace Capabilities

/-- What is offered for a service, if the report mentions it. -/
def service? (capabilities : Capabilities) (service : Service) : Option ServiceCapability :=
  capabilities.services.find? fun entry => entry.service == service

/-- A number, right-aligned in seven columns. -/
def column (value : Nat) : String := Text.padLeft 7 ' ' (toString value)

/-- The report: a line for each service and one for the agreements. -/
def display (capabilities : Capabilities) : String :=
  let line (entry : ServiceCapability) : String :=
    entry.service.name ++ " max " ++ column entry.maxRate ++ "  available " ++
      column entry.availableRate ++ "\n"
  String.join (capabilities.services.map line) ++ "SLAs  " ++ toString capabilities.usedSlas ++
    " used / " ++ toString capabilities.maxSlas ++ " max (" ++
    toString capabilities.availableSlas ++ " free)"

end Capabilities

end RateTree
