import RateTree.Proofs.Checks

/-!
# What an accepted plan says

A plan that was worked out is known to have passed every check. `CreatePlan.Accepted`,
`UpdatePlan.Accepted` and `DeletePlan.Accepted` list what the checks of each operation establish
about the tree and the plan.
-/

namespace RateTree

namespace Sla

variable (sla : Sla) (cir pir : Nat) (parent : Option NodeId)

@[simp]
theorem under_id : (sla.under parent).id = sla.id := rfl

@[simp]
theorem under_node : (sla.under parent).node = sla.node := rfl

@[simp]
theorem under_parent : (sla.under parent).parent = parent := rfl

@[simp]
theorem under_kind : (sla.under parent).kind = sla.kind := rfl

@[simp]
theorem under_service : (sla.under parent).service = sla.service := rfl

@[simp]
theorem under_cir : (sla.under parent).cir = sla.cir := rfl

@[simp]
theorem under_pir : (sla.under parent).pir = sla.pir := rfl

@[simp]
theorem under_owner : (sla.under parent).owner = sla.owner := rfl

end Sla

namespace Tree

variable {tree : Tree}

theorem ringsOf_atRates (sla : Sla) (cir pir : Nat) :
    tree.ringsOf (sla.atRates cir pir) = tree.ringsOf sla := rfl

/-- What is known when a request for a new agreement of a node has been accepted. -/
structure CreatePlan.Accepted (tree : Tree) (request : Sla) (plan : CreatePlan) (node : Node) :
    Prop where
  sla_eq : plan.sla = { request.raisePeak with id := request.node }.under plan.sla.parent
  in_range : request.node.InRange request.kind
  served : (tree.roots.id? request.service).isSome = true
  owner : request.kind = .leaf →
    ∃ vf, request.owner.checkedVf tree.config.totalVfs = .ok vf
  found : tree.nodes.find? request.node = some node
  vacant : node.configured = false
  service_eq : node.service = request.service
  kind_eq : node.kind = request.kind
  parent_eq : match request.kind with
    | .root => plan.sla.parent = none
    | .cluster => ∃ root, tree.roots.id? request.service = some root ∧ plan.sla.parent = some root
    | .leaf => ∃ cluster, request.parent = some cluster ∧ cluster.InRange .cluster ∧
        plan.sla.parent = some cluster
  cir_le_max : request.cir ≤ tree.profile.serviceMax request.service
  pir_le_max : request.pir ≤ tree.profile.serviceMax request.service
  afforded : ∀ above, plan.sla.parent = some above →
    ∃ parent, tree.nodes.find? above = some parent ∧ parent.service = request.service ∧
      parent.configured = true ∧ request.cir ≤ parent.remaining ∧ request.pir ≤ parent.peak
  tokens : Tokens.ofRates tree.profile plan.sla.service plan.sla.cir plan.sla.pir =
    .ok plan.tokens
  rings : tree.ringsOf plan.sla = .ok plan.rings
  rings_free : ∀ other ∈ tree.nodes.nodes .leaf, other.configured = true →
    other.id ≠ request.node → ∀ sla, other.sla = some sla →
      ∃ owned, tree.ringsOf sla = .ok owned ∧ ∀ ring ∈ plan.rings, ring ∉ owned

theorem planCreate_accepted {request : Sla} {plan : CreatePlan}
    (planned : tree.planCreate request = .ok plan) : ∃ node, plan.Accepted tree request node := by
  simp only [planCreate, Outcome.bind_eq_ok, Outcome.liftError_eq_ok, Outcome.pure_eq_ok,
    NodeId.checkRange_eq_ok, rootOf_eq_ok, checkOwner_eq_ok, checkVacant_eq_ok,
    resolveParent_eq_ok, checkPlace_eq_ok, checkRingsFree_eq_ok] at planned
  rcases planned with ⟨-, in_range, root, enabled, -, owner, -, ⟨node, found, vacant, service, kind⟩,
    parent, resolved, -, ⟨cir_le, pir_le, afforded⟩, tokens, computed, rings, known, -, free, rfl⟩
  refine ⟨node, ?_⟩
  exact
    { sla_eq := rfl
      in_range, owner, found, vacant, service_eq := service, kind_eq := kind
      served := by simp [enabled]
      parent_eq := by
        cases level : request.kind <;> simp only [level] at resolved ⊢
        · exact resolved
        · exact ⟨root, enabled, resolved⟩
        · exact resolved
      cir_le_max := cir_le
      pir_le_max := pir_le
      afforded
      tokens := computed
      rings := known
      rings_free := free }

/-- What is known when a request to change the agreement of a node has been accepted. -/
structure UpdatePlan.Accepted (tree : Tree) (request : Sla) (plan : UpdatePlan) (node : Node) :
    Prop where
  id_eq : plan.id = request.id
  sla_eq : plan.sla = (plan.current.atRates request.cir request.pir).under plan.sla.parent
  oldParent_eq : plan.oldParent = node.parent
  in_range : ∃ kind, plan.id.InRange kind
  found : tree.nodes.find? plan.id = some node
  bound : node.configured = true
  current_eq : node.sla = some plan.current
  cir_le_max : request.cir ≤ tree.profile.serviceMax node.service
  pir_le_max : request.pir ≤ tree.profile.serviceMax node.service
  covered : node.cir - node.remaining ≤ plan.sla.cir
  /-- The node stays where it is, or it is a leaf and moves to another cluster. -/
  target : plan.sla.parent = node.parent ∨
    ∃ cluster, plan.id.kind? = some .leaf ∧ request.parent = some cluster ∧
      some cluster ≠ node.parent ∧ plan.sla.parent = some cluster ∧ cluster.InRange .cluster ∧
      ∃ parent, tree.nodes.find? cluster = some parent ∧ parent.service = node.service ∧
        parent.configured = true ∧ plan.sla.cir ≤ parent.remaining ∧ plan.sla.pir ≤ parent.peak
  afforded : ∀ above, plan.sla.parent = some above → node.parent = some above →
    ∃ parent, tree.nodes.find? above = some parent ∧
      plan.sla.cir ≤ parent.remaining + node.cir ∧ plan.sla.pir ≤ parent.peak
  tokens : Tokens.ofRates tree.profile node.service plan.sla.cir plan.sla.pir = .ok plan.tokens
  rings : tree.ringsOf plan.current = .ok plan.rings

theorem planUpdate_accepted {request : Sla} {plan : UpdatePlan}
    (planned : tree.planUpdate request = .ok plan) : ∃ node, plan.Accepted tree request node := by
  simp only [planUpdate, Outcome.bind_eq_ok, Outcome.liftError_eq_ok, Outcome.pure_eq_ok,
    Prod.exists, NodeId.checkRange_eq_ok, NodeId.checkKind_eq_ok, configuredNode_eq_ok,
    checkNewRates_eq_ok, checkCovered_eq_ok, targetParent_eq_ok, checkPresentParent_eq_ok,
    ringsOf_atRates] at planned
  rcases planned with ⟨kind, known, -, in_range, node, current, ⟨found, bound, current_eq⟩, -,
    ⟨cir_le, pir_le⟩, -, covered, parent, target, -, afforded, tokens, computed, rings, owned, rfl⟩
  refine ⟨node, ?_⟩
  exact
    { id_eq := rfl
      sla_eq := rfl
      oldParent_eq := rfl
      in_range := ⟨kind, in_range⟩
      found, bound, current_eq
      cir_le_max := cir_le
      pir_le_max := pir_le
      covered
      target := by
        rcases target with ⟨same, -⟩ | ⟨cluster, leaf, named, moved, target, inside, there⟩
        · exact Or.inl same
        · exact Or.inr ⟨cluster, by rw [known, leaf], named, moved, target, inside, there⟩
      afforded
      tokens := computed
      rings := owned }

/-- An update puts a leaf under the cluster that is named, if one is, and leaves every other node where
it is. -/
theorem parent_of_planUpdate {request : Sla} {plan : UpdatePlan}
    (planned : tree.planUpdate request = .ok plan) :
    ∃ kind, plan.id.kind? = some kind ∧
      plan.sla.parent = if kind = .leaf then request.parent.or plan.oldParent else plan.oldParent := by
  simp only [planUpdate, Outcome.bind_eq_ok, Outcome.liftError_eq_ok, Outcome.pure_eq_ok,
    Prod.exists, NodeId.checkKind_eq_ok, targetParent_eq_ok] at planned
  rcases planned with ⟨kind, known, -, -, node, current, -, -, -, -, -, parent, target, -, -, tokens, -,
    rings, -, rfl⟩
  refine ⟨kind, known, ?_⟩
  show parent = _
  rcases target with ⟨rfl, -, leaf⟩ | ⟨cluster, rfl, named, -, rfl, -⟩
  · split
    · next level =>
      rcases leaf level with named | named
      · rw [named, Option.none_or]
      · rw [named, Option.or_self]
    · rfl
  · rw [if_pos rfl, named, Option.some_or]

/-- What is known when a request to take the agreement of a node away has been accepted. -/
structure DeletePlan.Accepted (tree : Tree) (id : NodeId) (plan : DeletePlan) (node : Node) :
    Prop where
  id_eq : plan.id = id
  parent_eq : plan.parent = node.parent
  in_range : id.InRange plan.kind
  found : tree.nodes.find? id = some node
  bound : node.configured = true
  sla_eq : node.sla = some plan.sla
  childless : ∀ child, plan.kind.child? = some child →
    ∀ other ∈ tree.nodes.nodes child, other.configured = true → other.parent ≠ some id
  rings : tree.ringsOf plan.sla = .ok plan.rings

theorem planDelete_accepted {id : NodeId} {plan : DeletePlan}
    (planned : tree.planDelete id = .ok plan) : ∃ node, plan.Accepted tree id node := by
  simp only [planDelete, Outcome.bind_eq_ok, Outcome.liftError_eq_ok, Outcome.pure_eq_ok,
    Prod.exists, NodeId.checkRange_eq_ok, configuredNode_eq_ok, checkNoChildren_eq_ok] at planned
  rcases planned with ⟨kind, -, -, in_range, node, sla, ⟨found, bound, sla_eq⟩, -, childless, rings,
    owned, rfl⟩
  exact ⟨node, ⟨rfl, rfl, in_range, found, bound, sla_eq, childless, owned⟩⟩

end Tree

end RateTree
