import RateTree.Proofs.Plans
import RateTree.Proofs.Postings
import RateTree.Proofs.Rebinding

/-!
# New agreements

Committing an accepted plan for a new agreement binds it to a vacant node and debits the parent. The
tree stays well-formed, and the parent can afford the debit.
-/

namespace RateTree

namespace Tree

variable {tree : Tree}

/-- The parent is debited what the node holds of it from now on. -/
theorem CreatePlan.totalAt_postings (plan : CreatePlan) (node : Node) (other : NodeId) :
    Posting.totalAt other plan.postings =
      -((node.bind plan.sla plan.sla.parent).shareUnder other : Int) := by
  cases under : plan.sla.parent with
  | none =>
      rw [postings, under, Node.shareUnder_of_ne (by simp [Node.bind])]
      rfl
  | some above =>
      rw [postings, under, Posting.totalAt_singleton, Node.shareUnder_of_parent rfl rfl]
      split <;> rfl

namespace CreatePlan.Accepted

variable {request : Sla} {plan : CreatePlan} {node : Node}

theorem sla_node (accepted : plan.Accepted tree request node) :
    plan.sla.node = request.node :=
  (congrArg Sla.node accepted.sla_eq).trans rfl

theorem sla_id (accepted : plan.Accepted tree request node) :
    plan.sla.id = request.node :=
  (congrArg Sla.id accepted.sla_eq).trans rfl

theorem sla_kind (accepted : plan.Accepted tree request node) :
    plan.sla.kind = request.kind :=
  (congrArg Sla.kind accepted.sla_eq).trans rfl

theorem sla_service (accepted : plan.Accepted tree request node) :
    plan.sla.service = request.service :=
  (congrArg Sla.service accepted.sla_eq).trans rfl

theorem sla_cir (accepted : plan.Accepted tree request node) :
    plan.sla.cir = request.cir :=
  (congrArg Sla.cir accepted.sla_eq).trans rfl

theorem sla_pir (accepted : plan.Accepted tree request node) :
    plan.sla.pir = max request.cir request.pir :=
  (congrArg Sla.pir accepted.sla_eq).trans rfl

/-- The new agreement comes under a parent one level up. -/
theorem parentInPlace (accepted : plan.Accepted tree request node) (sound : tree.WellFormed) :
    tree.ParentInPlace (node.bind plan.sla plan.sla.parent) := by
  have parent_eq := accepted.parent_eq
  have afforded := accepted.afforded
  simp only [ParentInPlace, Node.bind]
  rw [accepted.kind_eq, accepted.service_eq]
  cases level : request.kind with
  | root =>
      rw [level] at parent_eq
      exact parent_eq
  | cluster =>
      rw [level] at parent_eq
      rcases parent_eq with ⟨root, enabled, under⟩
      rcases afforded root under with ⟨parent, found, service, bound, -⟩
      rcases sound.rooted _ root enabled with ⟨held, there, kind, -⟩
      rw [found, Option.some.injEq] at there
      subst there
      exact ⟨root, parent, under, found, bound, kind, service⟩
  | leaf =>
      rw [level] at parent_eq
      rcases parent_eq with ⟨cluster, -, inside, under⟩
      rcases afforded cluster under with ⟨parent, found, service, bound, -⟩
      exact ⟨cluster, parent, under, found, bound, sound.kind_eq_of_inRange found inside, service⟩

/-- Only a root comes under no parent. -/
theorem root_of_parent_eq_none (accepted : plan.Accepted tree request node) (sound : tree.WellFormed)
    (nowhere : plan.sla.parent = none) : node.kind = .root := by
  have place := accepted.parentInPlace sound
  simp only [ParentInPlace, Node.bind, nowhere] at place
  cases level : node.kind with
  | root => rfl
  | cluster | leaf => simp [level, NodeKind.parent?] at place

theorem known (accepted : plan.Accepted tree request node) (sound : tree.WellFormed) :
    request.node.kind? = some node.kind := (sound.placed _ _ accepted.found).2

theorem parent_ne_node (accepted : plan.Accepted tree request node) {above : NodeId}
    (under : plan.sla.parent = some above) : above ≠ request.node := by
  rintro rfl
  rcases accepted.afforded _ under with ⟨parent, found, -, bound, -⟩
  rw [accepted.found, Option.some.injEq] at found
  subst found
  rw [accepted.vacant] at bound
  contradiction

theorem postedExactly (accepted : plan.Accepted tree request node) :
    (tree.nodes.modify plan.sla.node fun node => node.bind plan.sla plan.sla.parent).PostedExactly
      plan.postings := by
  cases under : plan.sla.parent with
  | none => simp [postings, under, NodeStore.PostedExactly]
  | some above =>
      rcases accepted.afforded above under with ⟨parent, found, -, -, affordable, -⟩
      have different := accepted.parent_ne_node under
      simp only [postings, under, NodeStore.PostedExactly, and_true]
      refine ⟨parent, ?_, ?_⟩
      · rw [NodeStore.find?_modify, accepted.sla_node, if_neg different, found]
      · rw [Posting.Exact, accepted.sla_cir]
        exact affordable

theorem elsewhere (accepted : plan.Accepted tree request node) :
    ∀ entry ∈ plan.postings, entry.1 ≠ request.node ∧ entry.2.IsTransfer := by
  intro entry mem
  cases under : plan.sla.parent with
  | none => simp [postings, under] at mem
  | some above =>
      simp only [postings, under, List.mem_singleton] at mem
      subst mem
      exact ⟨accepted.parent_ne_node under, trivial⟩

/-- Binding a new agreement gives the node its content and takes its rate from the parent. -/
theorem rebound (accepted : plan.Accepted tree request node) (sound : tree.WellFormed) :
    ∃ remainder,
      tree.nodes.Rebound (tree.commitCreate plan).nodes request.node node
        (node.bind plan.sla plan.sla.parent) remainder ∧
      ∀ other current, tree.nodes.find? other = some current →
        remainder other current + (node.bind plan.sla plan.sla.parent).shareUnder other =
          current.remaining := by
  have bound := (NodeStore.Rebound.refl (accepted.known sound) accepted.found).change
    fun node => node.bind plan.sla plan.sla.parent
  have exactly := accepted.postedExactly
  rw [accepted.sla_node] at exactly
  rcases bound.postAll exactly accepted.elsewhere with ⟨remainder, posted, total⟩
  refine ⟨remainder, ?_, ?_⟩
  · rw [commitCreate, accepted.sla_node]
    exact posted
  · intro other current found
    have settled := total other current found
    simp only [plan.totalAt_postings node] at settled
    omega

theorem carries (accepted : plan.Accepted tree request node) (sound : tree.WellFormed) :
    tree.Carries (node.bind plan.sla plan.sla.parent) plan.sla := by
  have id_eq := (sound.placed _ _ accepted.found).1
  have cir_le := accepted.cir_le_max
  have pir_le := accepted.pir_le_max
  exact
    { id_eq := accepted.sla_id.trans id_eq.symm
      node_eq := accepted.sla_node.trans id_eq.symm
      kind_eq := accepted.sla_kind.trans accepted.kind_eq.symm
      service_eq := accepted.sla_service.trans accepted.service_eq.symm
      parent_eq := rfl
      cir_le_pir := by
        rw [accepted.sla_cir, accepted.sla_pir]
        omega
      pir_le_max := by
        rw [accepted.sla_pir, accepted.sla_service]
        omega
      peak_eq := rfl
      rings := ⟨plan.rings, accepted.rings⟩
      tokens := ⟨plan.tokens, accepted.tokens⟩ }

/-- The rings of the new agreement feed no other node. -/
theorem ringsApart (accepted : plan.Accepted tree request node) (sound : tree.WellFormed)
    {other : NodeId} {otherNode : Node} {sla : Sla} (different : other ≠ request.node)
    (found : tree.nodes.find? other = some otherNode) (carried : otherNode.sla = some sla) :
    tree.RingsApart plan.sla sla := by
  intro rings owned rings_eq owned_eq ring ring_mem owned_mem
  have taken := sound.configured_of_sla found carried
  rcases sound.bound other otherNode found taken with ⟨agreement, bound, carries⟩
  rw [carried, Option.some.injEq] at bound
  subst bound
  cases level : otherNode.kind with
  | leaf =>
      have mem := sound.mem_nodes_of_find? found
      rw [level] at mem
      have id_eq := (sound.placed other otherNode found).1
      rcases accepted.rings_free otherNode mem taken (by rwa [id_eq]) sla carried with
        ⟨known, known_eq, free⟩
      rw [accepted.rings, Except.ok.injEq] at rings_eq
      rw [known_eq, Except.ok.injEq] at owned_eq
      subst rings_eq owned_eq
      exact free ring ring_mem owned_mem
  | root => exact not_mem_ringsOf (by rw [carries.kind_eq, level]; simp) owned_eq owned_mem
  | cluster => exact not_mem_ringsOf (by rw [carries.kind_eq, level]; simp) owned_eq owned_mem

end CreatePlan.Accepted

/-- Binding an accepted agreement keeps a tree well-formed. -/
theorem WellFormed.commitCreate (sound : tree.WellFormed) {request : Sla} {plan : CreatePlan}
    (planned : tree.planCreate request = .ok plan) : (tree.commitCreate plan).WellFormed := by
  rcases planCreate_accepted planned with ⟨node, accepted⟩
  rcases accepted.rebound sound with ⟨remainder, rebound, settled⟩
  refine sound.rebind rebound ?_ ?_
  · exact
      { id_eq := rfl
        kind_eq := rfl
        service_eq := rfl
        vacant := by simp [Node.bind]
        bound := fun _ => ⟨plan.sla, rfl, accepted.carries sound⟩
        parent := fun _ => accepted.parentInPlace sound
        childless := by simp [Node.bind]
        balanced := by
          intro _
          rw [sound.childrenShare_eq_zero (sound.childless_of_vacant accepted.found accepted.vacant)]
          rfl
        settled := by
          intro other current _ found
          rw [settled other current found, Node.shareUnder_of_vacant accepted.vacant, Nat.add_zero]
        apart := by
          intro other current sla otherSla different found bound carried
          cases bound
          exact accepted.ringsApart sound different found carried }
  · refine rebound.counts sound.counted rfl ?_
    intro level
    rw [accepted.vacant, accepted.sla_kind, ← accepted.kind_eq]
    simp only [Census.addSla, PerKind.get_set, Node.bind]
    split <;> simp_all

end Tree

end RateTree
