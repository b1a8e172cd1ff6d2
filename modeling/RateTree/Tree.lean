import RateTree.DeviceConfig
import RateTree.Ledger
import RateTree.Rings
import RateTree.Roots
import RateTree.Tokens

/-!
# The tree

The tree of nodes as the limiter keeps it in memory, and what an operation on it means before and
after the device is involved. An operation on an agreement is first planned: `planCreate`,
`planUpdate` and `planDelete` check a request against the tree and work out what has to be sent to
the device, without changing anything. Once the device has accepted, the plan is committed, which
changes nodes, budgets and counts and cannot fail.
-/

namespace RateTree

/-- The tree of one device: its constants, its nodes, and how many there are. -/
structure Tree where
  profile : Profile
  config : DeviceConfig
  nodes : NodeStore
  roots : Roots
  census : Census
deriving DecidableEq

/-- Checks that an identifier names a slot of a level. -/
def NodeId.checkRange (id : NodeId) (kind : NodeKind) : Except Error Unit :=
  if id.InRange kind then .ok () else .error (.invalidArgument (.nodeIdOutOfRange kind id))

/-- The kind of the node of an identifier. -/
def NodeId.checkKind (id : NodeId) : Except Error NodeKind :=
  match id.kind? with
  | some kind => .ok kind
  | none => .error (.invalidArgument (.nodeIdWithoutKind id))

namespace Tree

/-- Checks that rates stay within the largest rate of their service. -/
def checkRates (tree : Tree) (service : Service) (cir pir : Nat) : Except Error Unit :=
  let ceiling := tree.profile.serviceMax service
  if ceiling < cir ∨ ceiling < pir then
    .error (.invalidArgument (.rateAboveCeiling service cir pir ceiling))
  else .ok ()

/-- Checks that the rates of a root stay within the largest rate of its service. -/
def checkRootRates (tree : Tree) (service : Service) (cir pir : Nat) : Except Error Unit :=
  if tree.profile.withinCeiling service cir pir then .ok ()
  else .error (.permissionDenied (.rootAboveCeiling service))

/-- The root of a service, which has to be enabled. -/
def rootOf (tree : Tree) (service : Service) : Except Error NodeId :=
  match tree.roots.id? service with
  | some root => .ok root
  | none => .error (.notFound (.root service))

/-- The rings that an agreement takes: those of its function if it is a leaf's, none otherwise. -/
def ringsOf (tree : Tree) (sla : Sla) : Outcome (List Nat) :=
  match sla.kind with
  | .leaf => tree.config.ringsFor sla.owner sla.service
  | .root | .cluster => .ok []

/-- Checks that none of the rings feeds one of the given nodes. -/
def checkRingsApart (tree : Tree) (rings : List Nat) : List Node → Outcome Unit
  | [] => .ok ()
  | other :: rest =>
    match other.sla with
    | none => checkRingsApart tree rings rest
    | some sla => do
      let owned ← tree.ringsOf sla
      match rings.find? fun ring => owned.contains ring with
      | some ring => throw (.error (.permissionDenied (.ringTaken ring other.id)))
      | none => checkRingsApart tree rings rest

/-- Checks that none of the rings feeds a leaf other than the given one. -/
def checkRingsFree (tree : Tree) (leaf : NodeId) (rings : List Nat) : Outcome Unit :=
  tree.checkRingsApart rings
    ((tree.nodes.nodes .leaf).filter fun node => node.configured && node.id != leaf)

/-- The parent that a request's agreement comes under. -/
def resolveParent (sla : Sla) (root : NodeId) : Except Error (Option NodeId) :=
  match sla.kind with
  | .root => .ok none
  | .cluster => .ok (some root)
  | .leaf =>
    match sla.parent with
    | none => .error (.invalidArgument (.leafWithoutParent sla.node))
    | some parent => do
      parent.checkRange .cluster
      return some parent

/-- Checks that a node can become the parent of an agreement of a service at the given rates. -/
def checkNewParent (tree : Tree) (parent : NodeId) (service : Service) (cir pir : Nat) :
    Except Error Unit :=
  match tree.nodes.find? parent with
  | none => .error (.notFound (.parent parent))
  | some node =>
    if node.service ≠ service then
      .error (.invalidArgument (.parentOfOtherService parent node.service service))
    else if !node.configured then .error (.permissionDenied (.parentWithoutSla parent))
    else if !node.canAfford cir pir then .error (.permissionDenied (.notEnoughBudget parent))
    else .ok ()

/-- A new agreement, as it goes to the device and into the tree. -/
structure CreatePlan where
  /-- The agreement as its node will keep it. -/
  sla : Sla
  tokens : Tokens
  rings : List Nat
deriving DecidableEq

/-- Checks that the owner that a request names for a leaf is a function of the device. -/
def checkOwner (tree : Tree) (request : Sla) : Except Error Unit :=
  match request.kind with
  | .leaf => do
    let _ ← request.owner.checkedVf tree.config.totalVfs
    return ()
  | .root | .cluster => .ok ()

/-- Checks that a request's node exists, carries no agreement, and is of the request's service and
level. -/
def checkVacant (tree : Tree) (request : Sla) : Except Error Unit := do
  let node ← tree.nodes.get request.node
  if node.configured then .error (.permissionDenied (.slaExists request.kind request.node))
  else if node.service ≠ request.service ∨ node.kind ≠ request.kind then
    .error (.invalidArgument (.nodeOfOtherKind request.node node.service node.kind))
  else .ok ()

/-- Checks that a request's rates stay within the ceiling and that its parent, if it has one, can
take it. -/
def checkPlace (tree : Tree) (request : Sla) (parent : Option NodeId) : Except Error Unit :=
  match parent with
  | none => tree.checkRootRates request.service request.cir request.pir
  | some parent => do
    tree.checkRates request.service request.cir request.pir
    tree.checkNewParent parent request.service request.cir request.pir

/-- Checks a request for a new agreement and works out what it takes. -/
def planCreate (tree : Tree) (request : Sla) : Outcome CreatePlan := do
  request.node.checkRange request.kind
  let root ← tree.rootOf request.service
  tree.checkOwner request
  tree.checkVacant request
  let parent ← resolveParent request root
  tree.checkPlace request parent
  let sla := request.raisePeak
  let tokens ← Tokens.ofRates tree.profile sla.service sla.cir sla.pir
  let rings ← tree.ringsOf sla
  tree.checkRingsFree sla.node rings
  return ⟨{ sla with id := sla.node }.under parent, tokens, rings⟩

/-- The postings of a new agreement: its parent is debited. -/
def CreatePlan.postings (plan : CreatePlan) : List (NodeId × Posting) :=
  match plan.sla.parent with
  | some parent => [(parent, .debit plan.sla.cir)]
  | none => []

/-- Binds a new agreement to its node and makes its postings. -/
def commitCreate (tree : Tree) (plan : CreatePlan) : Tree :=
  let bound := tree.nodes.modify plan.sla.node fun node => node.bind plan.sla plan.sla.parent
  { tree with
    nodes := bound.postAll plan.postings
    census := tree.census.addSla plan.sla.kind }

/-- A changed agreement, as it goes to the device and into the tree. -/
structure UpdatePlan where
  id : NodeId
  current : Sla
  /-- The agreement as its node will keep it. -/
  sla : Sla
  oldParent : Option NodeId
  tokens : Tokens
  rings : List Nat
deriving DecidableEq

/-- A node and the agreement that it has. -/
def configuredNode (tree : Tree) (id : NodeId) : Except Error (Node × Sla) := do
  let node ← tree.nodes.get id
  match node.sla with
  | some sla =>
    if node.configured then return (node, sla) else throw (.notFound (.sla id))
  | none => throw (.notFound (.sla id))

/-- The parent that an update leaves a node under; only a leaf can be moved to another one. -/
def targetParent (tree : Tree) (kind : NodeKind) (node : Node) (requested : Option NodeId)
    (cir pir : Nat) : Except Error (Option NodeId) :=
  match kind, requested with
  | .root, _ | _, none => .ok node.parent
  | .cluster, some parent =>
    if some parent = node.parent then .ok node.parent
    else .error (.invalidArgument (.clusterCannotMove node.id parent))
  | .leaf, some parent =>
    if some parent = node.parent then .ok node.parent
    else do
      parent.checkRange .cluster
      tree.checkNewParent parent node.service cir pir
      return some parent

/-- Checks that a node's parent, if it has one and keeps the node, can carry it at new rates. -/
def checkPresentParent (tree : Tree) (node : Node) (target : Option NodeId) (cir pir : Nat) :
    Except Error Unit :=
  if target ≠ node.parent then .ok ()
  else
    match node.parent with
    | none => .ok ()
    | some parent => do
      let parentNode ← tree.nodes.get parent
      if parentNode.canAffordUpdate node cir pir then .ok ()
      else .error (.permissionDenied (.notEnoughBudget parent))

/-- Checks that new rates of a node stay within the ceiling of its service. -/
def checkNewRates (tree : Tree) (kind : NodeKind) (service : Service) (cir pir : Nat) :
    Except Error Unit :=
  match kind with
  | .root => tree.checkRootRates service cir pir
  | .cluster | .leaf => tree.checkRates service cir pir

/-- Checks that a new committed rate covers what a node has promised its children. -/
def checkCovered (id : NodeId) (node : Node) (cir : Nat) : Except Error Unit :=
  if node.coversChildren cir then .ok ()
  else .error (.permissionDenied (.belowChildren id cir))

/-- Checks a request to change an agreement and works out what it takes. -/
def planUpdate (tree : Tree) (request : Sla) : Outcome UpdatePlan := do
  let kind ← request.id.checkKind
  request.id.checkRange kind
  let (node, current) ← tree.configuredNode request.id
  tree.checkNewRates kind node.service request.cir request.pir
  let sla := current.atRates request.cir request.pir
  checkCovered request.id node sla.cir
  let parent ← tree.targetParent kind node request.parent sla.cir sla.pir
  tree.checkPresentParent node parent sla.cir sla.pir
  let tokens ← Tokens.ofRates tree.profile node.service sla.cir sla.pir
  let rings ← tree.ringsOf sla
  return ⟨request.id, current, sla.under parent, node.parent, tokens, rings⟩

/-- The postings that move a changed agreement's committed rate from one budget to another, or
within one. -/
def UpdatePlan.moves (plan : UpdatePlan) : List (NodeId × Posting) :=
  match plan.oldParent, plan.sla.parent with
  | some source, some target =>
    if source = target then [(source, .adjust plan.current.cir plan.sla.cir)]
    else [(source, .credit plan.current.cir), (target, .debit plan.sla.cir)]
  | some source, none => [(source, .adjust plan.current.cir plan.sla.cir)]
  | none, _ => []

/-- The postings of a changed agreement: its committed rate is moved, and then its node's own budget
follows the new rates. -/
def UpdatePlan.postings (plan : UpdatePlan) : List (NodeId × Posting) :=
  plan.moves ++ [(plan.id, .rebase plan.current.cir plan.sla.cir plan.sla.pir)]

/-- Makes the postings of a changed agreement and gives it to its node. -/
def commitUpdate (tree : Tree) (plan : UpdatePlan) : Tree :=
  { tree with
    nodes := (tree.nodes.postAll plan.postings).modify plan.id fun node =>
      { node with parent := plan.sla.parent, sla := some plan.sla } }

/-- An agreement to be taken away, as it goes to the device. -/
structure DeletePlan where
  id : NodeId
  kind : NodeKind
  sla : Sla
  parent : Option NodeId
  rings : List Nat
deriving DecidableEq

/-- Checks that no agreement hangs below a node. -/
def checkNoChildren (tree : Tree) (id : NodeId) (kind : NodeKind) : Except Error Unit :=
  match kind.child? with
  | none => .ok ()
  | some child =>
    if tree.nodes.hasConfiguredChild child id then
      .error (.permissionDenied (.childrenAttached id child))
    else .ok ()

/-- Checks a request to take an agreement away and works out what it takes. -/
def planDelete (tree : Tree) (id : NodeId) : Outcome DeletePlan := do
  let kind ← id.checkKind
  id.checkRange kind
  let (node, sla) ← tree.configuredNode id
  tree.checkNoChildren id kind
  let rings ← tree.ringsOf sla
  return ⟨id, kind, sla, node.parent, rings⟩

/-- The postings of an agreement that is taken away: its parent is credited. -/
def DeletePlan.postings (plan : DeletePlan) : List (NodeId × Posting) :=
  match plan.parent with
  | some parent => [(parent, .credit plan.sla.cir)]
  | none => []

/-- Makes the postings of an agreement that is taken away and takes it from its node. -/
def commitDelete (tree : Tree) (plan : DeletePlan) : Tree :=
  { tree with
    nodes := (tree.nodes.postAll plan.postings).modify plan.id Node.unbind
    census := tree.census.removeSla plan.kind }

/-- Adds a cluster or a leaf for a service. -/
def createNode (tree : Tree) (kind : NodeKind) (service : Service) :
    Except Error (NodeId × Tree) := do
  if kind = .root then
    throw (.invalidArgument .rootsFixed)
  let _ ← tree.rootOf service
  let (id, nodes) ← tree.nodes.allocate kind service
  return (id, { tree with nodes, census := tree.census.addNode kind })

/-- Checks a request to remove a node; the result is its level. -/
def checkRemovable (tree : Tree) (id : NodeId) : Except Error NodeKind := do
  let kind ← id.checkKind
  if kind = .root then
    throw (.invalidArgument .rootsRemovedAtExit)
  id.checkRange kind
  let _ ← tree.nodes.get id
  return kind

/-- The leaves whose agreements go when a node is removed: those below a cluster. -/
def leavesBelow (tree : Tree) (id : NodeId) : NodeKind → List NodeId
  | .cluster => (tree.nodes.configuredChildren .leaf id).map Node.id
  | .root | .leaf => []

/-- The tree without a node. -/
def removeNode (tree : Tree) (id : NodeId) (kind : NodeKind) : Except Error Tree := do
  let (_, nodes) ← tree.nodes.remove id
  return { tree with nodes, census := tree.census.removeNode kind }

end Tree

end RateTree
