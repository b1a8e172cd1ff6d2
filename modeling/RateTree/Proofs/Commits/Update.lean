import RateTree.Proofs.Plans
import RateTree.Proofs.Postings
import RateTree.Proofs.Rebinding

/-!
# Changed agreements

Committing an accepted plan for a changed agreement moves its rate within the budget of the parent,
or out of one parent's budget and into that of another, and gives the node a budget in which its
children keep what they were promised. The tree stays well-formed, and every posting is exact.
-/

namespace RateTree

namespace Tree

variable {tree : Tree}

namespace UpdatePlan

/-- The node with its changed agreement. -/
def renewed (plan : UpdatePlan) (node : Node) : Node :=
  { node.rebase plan.current.cir plan.sla.cir plan.sla.pir with
    parent := plan.sla.parent
    sla := some plan.sla }

theorem shareUnder_renewed {plan : UpdatePlan} {node : Node} {above : NodeId}
    (bound : node.configured = true) (under : plan.sla.parent = some above) (parent : NodeId) :
    (plan.renewed node).shareUnder parent = if above = parent then plan.sla.cir else 0 := by
  have taken : (plan.renewed node).configured = true := bound
  exact Node.shareUnder_of_parent taken under parent

/-- An update that moves its node, a leaf, to another cluster that can take it. -/
structure Moves (tree : Tree) (plan : UpdatePlan) (node : Node) (source target : NodeId)
    (parent : Node) : Prop where
  different : source ≠ target
  elsewhere : target ≠ plan.id
  leaf : node.kind = .leaf
  above : node.parent = some source
  under : plan.sla.parent = some target
  found : tree.nodes.find? target = some parent
  cluster : parent.kind = .cluster
  service : parent.service = node.service
  bound : parent.configured = true
  affordable : plan.sla.cir ≤ parent.remaining

/-- Where an update leaves its node: at the top, under the parent it has, or under another one. -/
inductive Place (tree : Tree) (plan : UpdatePlan) (node : Node) : Prop where
  | top (above : node.parent = none) (under : plan.sla.parent = none)
  | stays (parent : NodeId) (above : node.parent = some parent)
      (under : plan.sla.parent = some parent)
  | moves (source target : NodeId) (parent : Node) (move : Moves tree plan node source target parent)

namespace Accepted

variable {request : Sla} {plan : UpdatePlan} {node : Node}

theorem known (accepted : plan.Accepted tree request node) (sound : tree.WellFormed) :
    plan.id.kind? = some node.kind := (sound.placed _ _ accepted.found).2

theorem sla_id (accepted : plan.Accepted tree request node) : plan.sla.id = plan.current.id :=
  (congrArg Sla.id accepted.sla_eq).trans rfl

theorem sla_node (accepted : plan.Accepted tree request node) :
    plan.sla.node = plan.current.node :=
  (congrArg Sla.node accepted.sla_eq).trans rfl

theorem sla_kind (accepted : plan.Accepted tree request node) :
    plan.sla.kind = plan.current.kind :=
  (congrArg Sla.kind accepted.sla_eq).trans rfl

theorem sla_service (accepted : plan.Accepted tree request node) :
    plan.sla.service = plan.current.service :=
  (congrArg Sla.service accepted.sla_eq).trans rfl

theorem sla_cir (accepted : plan.Accepted tree request node) : plan.sla.cir = request.cir :=
  (congrArg Sla.cir accepted.sla_eq).trans rfl

theorem sla_pir (accepted : plan.Accepted tree request node) :
    plan.sla.pir = max request.cir request.pir :=
  (congrArg Sla.pir accepted.sla_eq).trans rfl

/-- An update leaves the rings of its node as they are. -/
theorem ringsOf_sla (accepted : plan.Accepted tree request node) :
    tree.ringsOf plan.sla = tree.ringsOf plan.current :=
  (congrArg tree.ringsOf accepted.sla_eq).trans rfl

theorem cir_eq (accepted : plan.Accepted tree request node) : plan.current.cir = node.cir := by
  simp only [Node.cir, accepted.current_eq]

theorem carried (accepted : plan.Accepted tree request node) (sound : tree.WellFormed) :
    tree.Carries node plan.current := by
  rcases sound.bound _ _ accepted.found accepted.bound with ⟨sla, carried, carries⟩
  rw [accepted.current_eq, Option.some.injEq] at carried
  rw [carried]
  exact carries

/-- What the node has promised its children is what they hold, and the new rate covers it. -/
theorem covers (accepted : plan.Accepted tree request node) (sound : tree.WellFormed) :
    node.remaining + tree.nodes.childrenShare plan.id = plan.current.cir ∧
      tree.nodes.childrenShare plan.id ≤ plan.sla.cir := by
  have balanced := sound.balanced _ _ accepted.found accepted.bound
  have covered := accepted.covered
  rw [accepted.cir_eq]
  omega

theorem place (accepted : plan.Accepted tree request node) (sound : tree.WellFormed) :
    plan.Place tree node := by
  rcases accepted.target with same | ⟨target, leaf, -, moved, under, inside, parent, found, service,
    bound, affordable, -⟩
  · cases above : node.parent with
    | none => exact .top above (by rw [same, above])
    | some parent => exact .stays parent above (by rw [same, above])
  · have level : node.kind = .leaf := by
      have known := accepted.known sound
      rw [leaf, Option.some.injEq] at known
      exact known.symm
    have cluster : parent.kind = .cluster := sound.kind_eq_of_inRange found inside
    have elsewhere : target ≠ plan.id := by
      rintro rfl
      rw [accepted.found, Option.some.injEq] at found
      subst found
      rw [level] at cluster
      contradiction
    have place := sound.parents _ _ accepted.found accepted.bound
    simp only [ParentInPlace, level, NodeKind.parent?] at place
    rcases place with ⟨source, -, above, -⟩
    have different : source ≠ target := by
      rintro rfl
      exact moved above.symm
    exact .moves source target parent
      { different, elsewhere, leaf := level, above, under, found, cluster, service, bound,
        affordable }

/-- What a kept parent has left covers the change of the committed rate. -/
theorem kept (accepted : plan.Accepted tree request node) (sound : tree.WellFormed)
    {above : NodeId} (was : node.parent = some above) (under : plan.sla.parent = some above) :
    above ≠ plan.id ∧ ∃ parent, tree.nodes.find? above = some parent ∧
      plan.sla.cir ≤ parent.remaining + plan.current.cir ∧
      parent.remaining + plan.current.cir ≤ parent.cir := by
  rcases accepted.afforded above under was with ⟨parent, found, affordable, -⟩
  rcases sound.exists_parent accepted.found accepted.bound was with
    ⟨different, held, located, -, -, room⟩
  rw [found, Option.some.injEq] at located
  subst located
  rw [accepted.cir_eq]
  exact ⟨different, parent, found, affordable, room⟩

/-- What a left parent gets back fits its committed rate. -/
theorem left (accepted : plan.Accepted tree request node) (sound : tree.WellFormed)
    {above : NodeId} (was : node.parent = some above) :
    above ≠ plan.id ∧ ∃ parent, tree.nodes.find? above = some parent ∧
      parent.remaining + plan.current.cir ≤ parent.cir ∧ parent.cir ≤ Word.max32 := by
  rcases sound.exists_parent accepted.found accepted.bound was with
    ⟨different, parent, found, taken, -, room⟩
  rw [accepted.cir_eq]
  exact ⟨different, parent, found, room, sound.cir_le_max32 found taken⟩

theorem moves_of_top (accepted : plan.Accepted tree request node) (above : node.parent = none) :
    plan.moves = [] := by
  rw [moves, accepted.oldParent_eq, above]

theorem moves_of_stays (accepted : plan.Accepted tree request node) {parent : NodeId}
    (above : node.parent = some parent) (under : plan.sla.parent = some parent) :
    plan.moves = [(parent, .adjust plan.current.cir plan.sla.cir)] := by
  simp only [moves, accepted.oldParent_eq, above, under, if_true]

theorem moves_of_moves (accepted : plan.Accepted tree request node) {source target : NodeId}
    {parent : Node} (move : Moves tree plan node source target parent) :
    plan.moves = [(source, .credit plan.current.cir), (target, .debit plan.sla.cir)] := by
  simp only [moves, accepted.oldParent_eq, move.above, move.under, move.different, if_false]

theorem elsewhere (accepted : plan.Accepted tree request node) (sound : tree.WellFormed) :
    ∀ entry ∈ plan.moves, entry.1 ≠ plan.id ∧ entry.2.IsTransfer := by
  intro entry mem
  cases accepted.place sound with
  | top above under => simp [accepted.moves_of_top above] at mem
  | stays parent above under =>
      rw [accepted.moves_of_stays above under, List.mem_singleton] at mem
      subst mem
      exact ⟨(accepted.kept sound above under).1, trivial⟩
  | moves source target parent move =>
      rw [accepted.moves_of_moves move, List.mem_pair] at mem
      rcases mem with rfl | rfl
      · exact ⟨(accepted.left sound move.above).1, trivial⟩
      · exact ⟨move.elsewhere, trivial⟩

/-- The parents are credited what the node gives up of them and debited what it takes. -/
theorem totalAt_moves (accepted : plan.Accepted tree request node) (sound : tree.WellFormed)
    (other : NodeId) :
    Posting.totalAt other plan.moves =
      (node.shareUnder other : Int) - (plan.renewed node).shareUnder other := by
  cases accepted.place sound with
  | top above under =>
      rw [accepted.moves_of_top above, Node.shareUnder_of_ne (by simp [above]),
        Node.shareUnder_of_ne (by simp [renewed, under])]
      rfl
  | stays parent above under =>
      rw [accepted.moves_of_stays above under, Posting.totalAt_singleton,
        Node.shareUnder_of_parent accepted.bound above, shareUnder_renewed accepted.bound under,
        accepted.cir_eq]
      split <;> rfl
  | moves source target parent move =>
      rw [accepted.moves_of_moves move, Node.shareUnder_of_parent accepted.bound move.above,
        shareUnder_renewed accepted.bound move.under, accepted.cir_eq]
      simp only [Posting.totalAt, Posting.amount]
      split_ifs <;> omega

theorem postedExactly_moves (accepted : plan.Accepted tree request node)
    (sound : tree.WellFormed) : tree.nodes.PostedExactly plan.moves := by
  cases accepted.place sound with
  | top above under =>
      rw [accepted.moves_of_top above]
      trivial
  | stays parent above under =>
      rcases accepted.kept sound above under with ⟨-, held, found, affordable, room⟩
      rw [accepted.moves_of_stays above under]
      exact ⟨⟨held, found, affordable, by omega⟩, trivial⟩
  | moves source target parent move =>
      rcases accepted.left sound move.above with ⟨-, held, found, room, small⟩
      rw [accepted.moves_of_moves move]
      refine ⟨⟨held, found, room, by omega⟩, ⟨parent, ?_, move.affordable⟩, trivial⟩
      rw [NodeStore.post, NodeStore.find?_modify, if_neg move.different.symm, move.found]

/-- The moves of an update change what remains of the budgets by what the node gives up and takes,
and nothing else. -/
theorem moved (accepted : plan.Accepted tree request node) (sound : tree.WellFormed) :
    ∃ remainder, tree.nodes.Rebound (tree.nodes.postAll plan.moves) plan.id node node remainder ∧
      ∀ other current, tree.nodes.find? other = some current →
        remainder other current + (plan.renewed node).shareUnder other =
          current.remaining + node.shareUnder other := by
  have same := NodeStore.Rebound.refl (accepted.known sound) accepted.found
  rcases same.postAll (accepted.postedExactly_moves sound) (accepted.elsewhere sound) with
    ⟨remainder, posted, total⟩
  refine ⟨remainder, posted, ?_⟩
  intro other current found
  have settled := total other current found
  simp only [accepted.totalAt_moves sound] at settled
  omega

theorem postedExactly (accepted : plan.Accepted tree request node) (sound : tree.WellFormed) :
    tree.nodes.PostedExactly plan.postings := by
  rw [postings, NodeStore.postedExactly_append]
  refine ⟨accepted.postedExactly_moves sound, ?_⟩
  rcases accepted.moved sound with ⟨remainder, rebound, -⟩
  rcases accepted.covers sound with ⟨balanced, covered⟩
  refine ⟨⟨node, rebound.is, ?_⟩, trivial⟩
  simp only [Posting.Exact]
  omega

/-- The update gives the node its content and settles the budgets of its parents. -/
theorem rebound (accepted : plan.Accepted tree request node) (sound : tree.WellFormed) :
    ∃ remainder,
      tree.nodes.Rebound (tree.commitUpdate plan).nodes plan.id node (plan.renewed node) remainder ∧
      ∀ other current, tree.nodes.find? other = some current →
        remainder other current + (plan.renewed node).shareUnder other =
          current.remaining + node.shareUnder other := by
  rcases accepted.moved sound with ⟨remainder, moved, settled⟩
  have rebased := moved.change fun node => node.rebase plan.current.cir plan.sla.cir plan.sla.pir
  have renewed := rebased.change fun node =>
    { node with parent := plan.sla.parent, sla := some plan.sla }
  refine ⟨remainder, ?_, settled⟩
  simp only [commitUpdate, postings, NodeStore.postAll, List.foldl_append]
  exact renewed

theorem carries (accepted : plan.Accepted tree request node) (sound : tree.WellFormed) :
    tree.Carries (plan.renewed node) plan.sla := by
  have carried := accepted.carried sound
  have cir_le := accepted.cir_le_max
  have pir_le := accepted.pir_le_max
  exact
    { id_eq := accepted.sla_id.trans carried.id_eq
      node_eq := accepted.sla_node.trans carried.node_eq
      kind_eq := accepted.sla_kind.trans carried.kind_eq
      service_eq := accepted.sla_service.trans carried.service_eq
      parent_eq := rfl
      cir_le_pir := by
        rw [accepted.sla_cir, accepted.sla_pir]
        omega
      pir_le_max := by
        rw [accepted.sla_pir, accepted.sla_service, carried.service_eq]
        omega
      peak_eq := rfl
      rings := ⟨plan.rings, accepted.ringsOf_sla.trans accepted.rings⟩
      tokens := by
        rw [accepted.sla_service, carried.service_eq]
        exact ⟨plan.tokens, accepted.tokens⟩ }

theorem parentInPlace (accepted : plan.Accepted tree request node) (sound : tree.WellFormed) :
    tree.ParentInPlace (plan.renewed node) := by
  have was := sound.parents _ _ accepted.found accepted.bound
  have same : plan.sla.parent = node.parent → tree.ParentInPlace (plan.renewed node) := by
    intro under
    simpa only [ParentInPlace, renewed, Node.rebase, under] using was
  cases accepted.place sound with
  | top above under => exact same (by rw [under, above])
  | stays parent above under => exact same (by rw [under, above])
  | moves source target parent move =>
      simp only [ParentInPlace, renewed, Node.rebase, move.leaf, NodeKind.parent?]
      exact ⟨target, parent, move.under, move.found, move.bound, move.cluster, move.service⟩

end Accepted

end UpdatePlan

/-- Changing an agreement as accepted keeps a tree well-formed. -/
theorem WellFormed.commitUpdate (sound : tree.WellFormed) {request : Sla} {plan : UpdatePlan}
    (planned : tree.planUpdate request = .ok plan) : (tree.commitUpdate plan).WellFormed := by
  rcases planUpdate_accepted planned with ⟨node, accepted⟩
  rcases accepted.rebound sound with ⟨remainder, rebound, settled⟩
  have taken : (plan.renewed node).configured = true := accepted.bound
  refine sound.rebind rebound ?_ ?_
  · exact
      { id_eq := rfl
        kind_eq := rfl
        service_eq := rfl
        vacant := by simp [taken]
        bound := fun _ => ⟨plan.sla, rfl, accepted.carries sound⟩
        parent := fun _ => accepted.parentInPlace sound
        childless := by simp [taken]
        balanced := by
          intro _
          rcases accepted.covers sound with ⟨balanced, covered⟩
          change plan.sla.cir - (plan.current.cir - node.remaining) +
            tree.nodes.childrenShare plan.id = plan.sla.cir
          omega
        settled := fun other current _ found => settled other current found
        apart := by
          intro other current sla otherSla different found bound carried
          cases bound
          intro rings owned rings_eq
          rw [accepted.ringsOf_sla] at rings_eq
          exact sound.apart _ other node current _ otherSla different.symm accepted.found found
            accepted.current_eq carried rings owned rings_eq }
  · apply rebound.counts sound.counted rfl
    intro level
    rfl

end Tree

end RateTree
