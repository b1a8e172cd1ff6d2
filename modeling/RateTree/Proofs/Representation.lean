import RateTree.Proofs.Owners
import RateTree.Proofs.Invariant

/-!
# How nodes are represented

A node says much of what it is more than once: its place by the slot it is in and by its identifier,
whether it carries an agreement by a flag and by the agreement, its parent, its rates and its budget
beside an agreement that names them too. The census says once more how many nodes there are. At every
moment of every run all this agrees, so that nothing is ever taken off a count of zero.
-/

namespace RateTree

namespace Node

/-- Whether a node and an agreement that is bound to it say the same of the node, at rates within a
ceiling. -/
structure Repeats (node : Node) (sla : Sla) (ceiling : Nat) : Prop where
  id_eq : sla.id = node.id
  node_eq : sla.node = node.id
  kind_eq : sla.kind = node.kind
  service_eq : sla.service = node.service
  parent_eq : sla.parent = node.parent
  cir_le_pir : sla.cir ≤ sla.pir
  pir_le_ceiling : sla.pir ≤ ceiling
  peak_eq : node.peak = sla.pir
  remaining_le : node.remaining ≤ sla.cir

/-- Whether a node is as the slot of a level says that it is in, with an agreement or without. -/
structure Represents (profile : Profile) (kind : NodeKind) (index : Nat) (node : Node) : Prop where
  id_eq : node.id = NodeId.ofSlot kind index
  kind_eq : node.kind = kind
  flag_eq : node.configured = node.sla.isSome
  bound : ∀ sla, node.sla = some sla → node.Repeats sla (profile.serviceMax node.service)
  vacant : node.sla = none → node.parent = none ∧ node.remaining = 0 ∧ node.peak = 0

end Node

namespace Tree

/-- Whether every slot of a tree holds a node that belongs there or none, and the census counts the nodes
and the agreements. -/
structure Represented (tree : Tree) : Prop where
  slots : ∀ kind index node, tree.nodes.slot kind index = some node →
    index < kind.capacity ∧ node.Represents tree.profile kind index
  counted : Counts tree.census tree.nodes

variable {tree : Tree}

theorem WellFormed.represents (sound : tree.WellFormed) {kind : NodeKind} {index : Nat} {node : Node}
    (held : tree.nodes.slot kind index = some node) : node.Represents tree.profile kind index := by
  rcases sound.node_of_slot held with ⟨-, id_eq, level⟩
  have found := (sound.find?_of_mem_nodes (NodeStore.mem_nodes.2 ⟨index, held⟩)).1
  by_cases taken : node.configured = true
  · rcases sound.bound _ node found taken with ⟨_, carried, -⟩
    refine ⟨id_eq, level, by rw [taken, carried]; rfl, ?_, by simp [carried]⟩
    intro sla carried
    have carries := sound.carries_of_sla found carried
    have ceiling := carries.pir_le_max
    rw [carries.service_eq] at ceiling
    have balanced := sound.balanced _ node found taken
    simp only [Node.cir, carried] at balanced
    exact ⟨carries.id_eq, carries.node_eq, carries.kind_eq, carries.service_eq, carries.parent_eq,
      carries.cir_le_pir, ceiling, carries.peak_eq, by omega⟩
  · -- A node without an agreement is the fresh one, which has nothing.
    rw [Bool.not_eq_true] at taken
    have fresh := sound.vacant _ node found taken
    refine ⟨id_eq, level, ?_, ?_, ?_⟩ <;> rw [fresh]
    · rfl
    · rintro sla ⟨⟩
    · exact fun _ => ⟨rfl, rfl, rfl⟩

theorem WellFormed.represented (sound : tree.WellFormed) : tree.Represented where
  slots _ _ _ held := ⟨(sound.node_of_slot held).1, sound.represents held⟩
  counted := sound.counted

end Tree

namespace Limiter

/-- Whether a call that takes a node or an agreement away, should it come to that, finds one counted. -/
def Call.CountsDown (tree : Tree) : Call → Prop
  | .createNode _ _ | .createSla _ | .updateSla _ => True
  | .removeNode id kind => ∀ after, tree.removeNode id kind = .ok after →
      0 < tree.census.nodes.get kind
  | .deleteSla id => ∀ plan, tree.planDelete id = .ok plan → 0 < tree.census.slas.get plan.kind

theorem Call.countsDown {tree : Tree} (sound : tree.WellFormed) (call : Call)
    (admissible : call.Admissible) : call.CountsDown tree := by
  cases call with
  | createNode kind service => trivial
  | createSla request => trivial
  | updateSla request => trivial
  | removeNode id kind =>
      intro after removed
      rcases Tree.removeNode_eq_ok removed with ⟨node, _, found, -, -⟩
      have known := (sound.placed id node found).2
      rw [admissible.1, Option.some.injEq] at known
      rw [(sound.counted kind).1, known]
      exact List.length_pos_of_mem (sound.mem_nodes_of_find? found)
  | deleteSla id =>
      intro plan planned
      rcases Tree.planDelete_accepted planned with ⟨node, accepted⟩
      have held := sound.mem_nodes_of_find? accepted.found
      rw [← accepted.kind_eq sound] at held
      rw [(sound.counted plan.kind).2, List.countP_pos_iff]
      exact ⟨node, held, accepted.bound⟩

variable {δ : Type} [RegisterAccess δ] [BlockMemory δ] [AdminTransport δ]

/-- At every moment of every run, whatever the device answers, all that is said of a node agrees and the
census counts what there is; and no call takes from a count of zero, those included that an operation is
made of. -/
theorem nodes_are_represented (profile : Profile) (config : DeviceConfig) (initial : δ → Prop)
    (moves : δ → δ → Prop) :
    (∀ limiter, Reachable profile config initial moves limiter →
      Underway profile config initial moves limiter) ∧
    ∀ limiter, Underway profile config initial moves limiter →
      limiter.tree.Represented ∧
      (∀ call : Call, call.Admissible → call.CountsDown limiter.tree) ∧
      ∀ operation : Operation,
        Steps (fun tree call => call.CountsDown tree) limiter (operation.run limiter).2 := by
  refine ⟨fun limiter reached => reached.underway, ?_⟩
  intro limiter underway
  have sound := underway.wellFormed
  refine ⟨sound.represented, fun call => call.countsDown sound, ?_⟩
  intro operation
  exact ((Stepwise.run operation limiter).of_wellFormed
    (fun _ formed call => call.countsDown formed) sound).1

/-- In a run on a bench, the first leaf is represented, the one leaf agreement is counted, and tearing the
limiter down takes from no count of zero. -/
theorem nodes_are_represented_on_bench :
    ∃ limiter, Reachable Profile.gen4 smallConfig (Eq Bench.fresh) (fun _ _ => False) limiter ∧
      limiter.tree.Represented ∧
      (∃ leaf, limiter.tree.nodes.slot .leaf 0 = some leaf ∧
        leaf.Represents limiter.tree.profile .leaf 0 ∧ leaf.sla.isSome = true ∧
        0 < limiter.tree.census.slas.leaf) ∧
      Steps (fun tree call => call.CountsDown tree) limiter (Operation.exit.run limiter).2 := by
  rcases nodes_are_represented Profile.gen4 smallConfig (Eq Bench.fresh) (fun _ _ => False) with
    ⟨underway, always⟩
  rcases exists_reachable rfl with ⟨limiter, reached, -, leaf, found, bound⟩
  rcases always limiter (underway limiter reached) with ⟨represented, -, operations⟩
  have held : limiter.tree.nodes.slot .leaf 0 = some leaf := found
  rcases represented.slots _ _ _ held with ⟨-, represents⟩
  have counted := (represented.counted .leaf).2
  have positive := List.countP_pos_iff.2 ⟨leaf, NodeStore.mem_nodes.2 ⟨0, held⟩, bound⟩
  rw [← counted] at positive
  exact ⟨limiter, reached, represented, ⟨leaf, held, represents, represents.flag_eq ▸ bound, positive⟩,
    operations .exit⟩

end Limiter

end RateTree
