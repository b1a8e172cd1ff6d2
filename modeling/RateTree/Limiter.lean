import RateTree.Admin.Channel
import RateTree.LinkTable
import RateTree.Tree

/-!
# The limiter

A limiter keeps the tree of a device and carries its operations out on the device. An operation on
an agreement is planned on the tree, applied to the device, and committed to the tree: a plan that
fails never reaches the device, and a device that fails leaves the tree as it was. While a plan is
applied, links that were set are taken back if the firmware refuses.

Bringing a limiter up builds the roots and gives every service one cluster with a leaf for each
function; tearing it down takes every agreement and every cluster and leaf away again.
-/

namespace RateTree

/-- A tree and the device it is kept on. -/
structure Limiter (δ : Type) where
  tree : Tree
  device : δ

namespace Limiter

variable {δ α π : Type} [RegisterAccess δ] [BlockMemory δ] [AdminTransport δ]

/-- Links a new agreement's node and has the firmware add the agreement. -/
def applyCreate (plan : Tree.CreatePlan) : Action δ Unit := do
  LinkTable.link plan.sla.node plan.sla.parent plan.rings
  (AdminChannel.sendSla .add plan.sla.node plan.sla.service plan.tokens plan.rings).undoOnError
    (LinkTable.unlink plan.sla.node plan.rings)

/-- Links a leaf to its new cluster, if it moves, and has the firmware update the agreement. -/
def applyUpdate (plan : Tree.UpdatePlan) : Action δ Unit :=
  let send := AdminChannel.sendSla .update plan.id plan.sla.service plan.tokens plan.rings
  match plan.oldParent, plan.sla.parent with
  | some source, some target =>
    if source = target then send
    else do
      LinkTable.relink plan.id target
      send.undoOnError (LinkTable.relink plan.id source)
  | _, _ => send

/-- Has the firmware delete an agreement and takes its links back. -/
def applyDelete (plan : Tree.DeletePlan) : Action δ Unit := do
  AdminChannel.sendSla .delete plan.id plan.sla.service .zero plan.rings
  LinkTable.unlink plan.id plan.rings

/-- Plans an operation on the tree, applies the plan to the device and commits it to the tree. -/
def carryOut (plan : Tree → Outcome π) (apply : π → Action δ Unit) (commit : Tree → π → Tree)
    (result : π → α) : Action (Limiter δ) α := fun limiter =>
  match plan limiter.tree with
  | .error failure => (.error failure, limiter)
  | .ok planned =>
    match apply planned limiter.device with
    | (.ok (), device) => (.ok (result planned), ⟨commit limiter.tree planned, device⟩)
    | (.error failure, device) => (.error failure, { limiter with device })

/-- Binds a new agreement to its node; the result is its identifier. -/
def createSla (request : Sla) : Action (Limiter δ) NodeId :=
  carryOut (fun tree => tree.planCreate request) applyCreate Tree.commitCreate fun plan =>
    plan.sla.id

/-- Changes the rates of an agreement, and the cluster of a leaf if the request names another. -/
def updateSla (request : Sla) : Action (Limiter δ) Unit :=
  carryOut (fun tree => tree.planUpdate request) applyUpdate Tree.commitUpdate fun _ => ()

/-- Takes an agreement away from its node and from the device. -/
def deleteSla (id : NodeId) : Action (Limiter δ) Unit :=
  carryOut (fun tree => tree.planDelete id) applyDelete Tree.commitDelete fun _ => ()

/-- Changes the tree of a limiter without touching the device. -/
def onTree (change : Tree → Except Error (α × Tree)) : Action (Limiter δ) α := fun limiter =>
  match change limiter.tree with
  | .ok (result, tree) => (.ok result, { limiter with tree })
  | .error cause => (.error (.error cause), limiter)

/-- Answers a question by the tree of a limiter. -/
def ask (question : Tree → Outcome α) : Action (Limiter δ) α := fun limiter =>
  (question limiter.tree, limiter)

/-- Adds a cluster or a leaf for a service; the result is its identifier. -/
def createNode (kind : NodeKind) (service : Service) : Action (Limiter δ) NodeId :=
  onTree fun tree => tree.createNode kind service

/-- Removes a node of a level that carries no agreement. -/
def removeNode (id : NodeId) (kind : NodeKind) : Action (Limiter δ) Unit :=
  onTree fun tree => (tree.removeNode id kind).map fun rest => ((), rest)

/-- Takes the agreement of a node away if it has one. -/
def deleteSlaIfAny (id : NodeId) : Action (Limiter δ) Unit := do
  let limiter ← Action.get
  let node ← (limiter.tree.nodes.get id : Except Error Node)
  if node.configured then deleteSla id else pure ()

/-- Removes a cluster or a leaf, after its own agreement and those of the leaves below it. -/
def deleteNode (id : NodeId) : Action (Limiter δ) Unit := do
  let limiter ← Action.get
  let kind ← (limiter.tree.checkRemovable id : Except Error NodeKind)
  Action.forEach (limiter.tree.leavesBelow id kind) deleteSla
  deleteSlaIfAny id
  removeNode id kind

/-- Removes every leaf and every cluster, and the agreements of the roots. What cannot be removed is
passed over. -/
def tearDown : Action (Limiter δ) Unit := do
  let limiter ← Action.get
  Action.forEach (limiter.tree.nodes.ids .leaf) fun id => (deleteNode id).passOver
  let pruned ← Action.get
  Action.forEach (pruned.tree.nodes.ids .cluster) fun id => (deleteNode id).passOver
  let bare ← Action.get
  Action.forEach bare.tree.roots.toList fun entry => (deleteSlaIfAny entry.2).passOver

/-- The limiter after it has been torn down as far as possible. -/
def exit (limiter : Limiter δ) : Limiter δ :=
  (tearDown limiter).2

/-- Gives a service its cluster with a leaf for each function, and the agreements of root and
cluster the whole rate of the service. -/
def plantService (service : Service) (root : NodeId) : Action (Limiter δ) Unit := do
  let limiter ← Action.get
  let cluster ← createNode .cluster service
  Action.forEach (List.range limiter.tree.config.totalVfs) fun _ => do
    let _ ← createNode .leaf service
  let ceiling := limiter.tree.profile.serviceMax service
  let _ ← createSla (.root root service ceiling ceiling)
  let _ ← createSla (.cluster cluster service ceiling ceiling)

/-- Gives every service with a root its cluster and leaves. -/
def bootstrap : Action (Limiter δ) Unit := do
  let limiter ← Action.get
  Action.forEach limiter.tree.roots.toList fun (service, root) => plantService service root

/-- The tree that has the roots of a configuration and nothing else. -/
def rootsOnly (profile : Profile) (config : DeviceConfig) : Outcome Tree :=
  match Roots.build config.services (NodeStore.empty, Census.zero) with
  | (.ok roots, (nodes, census)) => .ok ⟨profile, config, nodes, roots, census⟩
  | (.error failure, _) => .error failure

/-- Checks the constants of a device, resets the limiter and makes its roots. -/
def prepare (profile : Profile) (config : DeviceConfig) : Action δ Tree := do
  profile.validate
  config.validate
  AdminChannel.sendInit
  let tree ← (rootsOnly profile config : Outcome Tree)
  writeRegister profile.pcieInBucket 0
  writeRegister profile.pcieOutBucket 0
  return tree

/-- Brings up a limiter on a device; the result is its tree. What was built before an error is torn
down again. -/
def start (profile : Profile) (config : DeviceConfig) : Action δ Tree := fun device =>
  match prepare profile config device with
  | (.error failure, after) => (.error failure, after)
  | (.ok tree, ready) =>
    match (bootstrap.undoOnError tearDown) ⟨tree, ready⟩ with
    | (.ok (), limiter) => (.ok limiter.tree, limiter.device)
    | (.error failure, limiter) => (.error failure, limiter.device)

end Limiter

end RateTree
