import RateTree.Proofs.Plans
import RateTree.Proofs.Postings
import RateTree.Proofs.Rebinding

/-!
# Withdrawn agreements

Committing an accepted plan to take an agreement away credits the parent with what the node held and
leaves the node as fresh as it was made. The tree stays well-formed, and the credit is exact.
-/

namespace RateTree

theorem NodeKind.child?_eq_some {kind child : NodeKind} :
    kind.child? = some child ↔ child.parent? = some kind := by
  cases kind <;> cases child <;> simp [NodeKind.child?, NodeKind.parent?]

namespace Tree

variable {tree : Tree}

namespace DeletePlan.Accepted

variable {id : NodeId} {plan : DeletePlan} {node : Node}

theorem known (accepted : plan.Accepted tree id node) (sound : tree.WellFormed) :
    id.kind? = some node.kind := (sound.placed _ _ accepted.found).2

theorem cir_eq (accepted : plan.Accepted tree id node) : plan.sla.cir = node.cir := by
  simp only [Node.cir, accepted.sla_eq]

theorem kind_eq (accepted : plan.Accepted tree id node) (sound : tree.WellFormed) :
    plan.kind = node.kind := (sound.kind_eq_of_inRange accepted.found accepted.in_range).symm

/-- What the parent gets back fits its committed rate. -/
theorem left (accepted : plan.Accepted tree id node) (sound : tree.WellFormed) {above : NodeId}
    (was : node.parent = some above) :
    above ≠ id ∧ ∃ parent, tree.nodes.find? above = some parent ∧
      parent.remaining + plan.sla.cir ≤ parent.cir ∧ parent.cir ≤ Word.max32 := by
  rcases sound.exists_parent accepted.found accepted.bound was with
    ⟨different, parent, found, taken, -, room⟩
  rw [accepted.cir_eq]
  exact ⟨different, parent, found, room, sound.cir_le_max32 found taken⟩

theorem postedExactly (accepted : plan.Accepted tree id node) (sound : tree.WellFormed) :
    tree.nodes.PostedExactly plan.postings := by
  cases above : node.parent with
  | none => simp [postings, accepted.parent_eq, above, NodeStore.PostedExactly]
  | some parent =>
      rcases accepted.left sound above with ⟨-, held, found, room, small⟩
      simp only [postings, accepted.parent_eq, above, NodeStore.PostedExactly, and_true]
      refine ⟨held, found, ?_⟩
      simp only [Posting.Exact]
      omega

/-- No configured node hangs below the node. -/
theorem nothing_below (accepted : plan.Accepted tree id node) (sound : tree.WellFormed)
    {other : NodeId} {child : Node} (located : tree.nodes.find? other = some child)
    (bound : child.configured = true) : child.parent ≠ some id := by
  intro under
  rcases sound.exists_parent located bound under with ⟨-, held, found, -, above, -⟩
  rw [accepted.found, Option.some.injEq] at found
  subst found
  have below : plan.kind.child? = some child.kind := by
    rw [accepted.kind_eq sound, NodeKind.child?_eq_some]
    exact above.symm
  exact accepted.childless _ below child (sound.mem_nodes_of_find? located) bound under

/-- The parent is credited what the node held of it. -/
theorem totalAt_postings (accepted : plan.Accepted tree id node) (other : NodeId) :
    Posting.totalAt other plan.postings = (node.shareUnder other : Int) := by
  cases above : node.parent with
  | none =>
      rw [postings, accepted.parent_eq, above, Node.shareUnder_of_ne (by simp [above])]
      rfl
  | some parent =>
      rw [postings, accepted.parent_eq, above, Posting.totalAt_singleton,
        Node.shareUnder_of_parent accepted.bound above, ← accepted.cir_eq]
      split <;> rfl

theorem elsewhere (accepted : plan.Accepted tree id node) (sound : tree.WellFormed) :
    ∀ entry ∈ plan.postings, entry.1 ≠ id ∧ entry.2.IsTransfer := by
  intro entry mem
  cases above : node.parent with
  | none => simp [postings, accepted.parent_eq, above] at mem
  | some parent =>
      simp only [postings, accepted.parent_eq, above, List.mem_singleton] at mem
      subst mem
      exact ⟨(accepted.left sound above).1, trivial⟩

/-- Taking the agreement away leaves the node fresh and gives its rate back to the parent. -/
theorem rebound (accepted : plan.Accepted tree id node) (sound : tree.WellFormed) :
    ∃ remainder,
      tree.nodes.Rebound (tree.commitDelete plan).nodes id node node.unbind remainder ∧
      ∀ other current, tree.nodes.find? other = some current →
        remainder other current = current.remaining + node.shareUnder other := by
  have same := NodeStore.Rebound.refl (accepted.known sound) accepted.found
  rcases same.postAll (accepted.postedExactly sound) (accepted.elsewhere sound) with
    ⟨remainder, posted, total⟩
  refine ⟨remainder, ?_, ?_⟩
  · rw [commitDelete, accepted.id_eq]
    exact posted.change Node.unbind
  · intro other current found
    have settled := total other current found
    simp only [accepted.totalAt_postings] at settled
    omega

end DeletePlan.Accepted

/-- Taking an agreement away as accepted keeps a tree well-formed. -/
theorem WellFormed.commitDelete (sound : tree.WellFormed) {id : NodeId} {plan : DeletePlan}
    (planned : tree.planDelete id = .ok plan) : (tree.commitDelete plan).WellFormed := by
  rcases planDelete_accepted planned with ⟨node, accepted⟩
  rcases accepted.rebound sound with ⟨remainder, rebound, settled⟩
  refine sound.rebind rebound ?_ ?_
  · exact
      { id_eq := rfl
        kind_eq := rfl
        service_eq := rfl
        vacant := fun _ => rfl
        bound := by simp [Node.unbind]
        parent := by simp [Node.unbind]
        childless := fun _ other child located bound => accepted.nothing_below sound located bound
        balanced := by simp [Node.unbind]
        settled := by
          intro other current _ found
          have nothing : node.unbind.shareUnder other = 0 := Node.shareUnder_of_vacant rfl other
          rw [settled other current found, nothing, Nat.add_zero]
        apart := by simp [Node.unbind] }
  · refine rebound.counts sound.counted rfl ?_
    intro level
    have counted := (sound.counted level).2
    have agreements := NodeStore.le_totalOn (sound.mem_nodes_of_find? accepted.found)
      fun node => if node.configured then 1 else 0
    rw [← NodeStore.countP_nodes_eq_totalOn, accepted.bound, if_pos rfl] at agreements
    simp only [Census.removeSla, PerKind.get_set, accepted.kind_eq sound, Node.unbind,
      accepted.bound]
    by_cases here : level = node.kind
    · subst here
      simp only [if_true, Bool.false_eq_true, if_false]
      omega
    · simp [here]

end Tree

end RateTree
