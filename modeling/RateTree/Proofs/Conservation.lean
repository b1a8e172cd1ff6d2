import RateTree.Proofs.Invariant

/-!
# Budgets are conserved

In every run, what remains of a configured node's committed rate and what its configured children
hold add up to that rate, and no posting that the limiter makes to a budget is ever cut off: the
bounds that the ledger keeps its budgets within are never what decides.
-/

namespace RateTree

namespace Limiter

/-- Whether the postings that a call makes, should the device accept it, are exact. -/
def Call.PostsExactly (tree : Tree) : Call → Prop
  | .createNode _ _ | .removeNode _ _ => True
  | .createSla request => ∀ plan, tree.planCreate request = .ok plan →
      (tree.nodes.modify plan.sla.node fun node =>
        node.bind plan.sla plan.sla.parent).PostedExactly plan.postings
  | .updateSla request => ∀ plan, tree.planUpdate request = .ok plan →
      tree.nodes.PostedExactly plan.postings
  | .deleteSla id => ∀ plan, tree.planDelete id = .ok plan →
      tree.nodes.PostedExactly plan.postings

theorem Call.postsExactly {tree : Tree} (sound : tree.WellFormed) (call : Call) :
    call.PostsExactly tree := by
  cases call with
  | createNode kind service => trivial
  | removeNode id kind => trivial
  | createSla request =>
      intro plan planned
      rcases Tree.planCreate_accepted planned with ⟨node, accepted⟩
      exact accepted.postedExactly
  | updateSla request =>
      intro plan planned
      rcases Tree.planUpdate_accepted planned with ⟨node, accepted⟩
      exact accepted.postedExactly sound
  | deleteSla id =>
      intro plan planned
      rcases Tree.planDelete_accepted planned with ⟨node, accepted⟩
      exact accepted.postedExactly sound

variable {δ : Type} [RegisterAccess δ] [BlockMemory δ] [AdminTransport δ]

/-- From a well-formed tree on, whatever is made of calls posts exactly. -/
theorem Steps.exact {limiter after : Limiter δ} (sound : limiter.tree.WellFormed)
    (steps : Steps (fun _ _ => True) limiter after) :
    Steps (fun tree call => call.PostsExactly tree) limiter after ∧ after.tree.WellFormed :=
  steps.of_wellFormed (fun _ formed call _ => call.postsExactly formed) sound

/-- Budgets are conserved: in every reachable limiter the budget of each configured node is balanced,
its parent is in place, and whatever call is made posts exactly; and so do the calls that are made
while a limiter comes up and while it performs an operation. -/
theorem budgets_conserved (profile : Profile) (config : DeviceConfig) (initial : δ → Prop)
    (moves : δ → δ → Prop) :
    (∀ device bare ready, prepare profile config device = (.ok bare, ready) →
      Steps (fun tree call => call.PostsExactly tree) ⟨bare, ready⟩
        ((bootstrap.undoOnError tearDown) (⟨bare, ready⟩ : Limiter δ)).2) ∧
    ∀ limiter, Reachable profile config initial moves limiter →
      (∀ id node, limiter.tree.nodes.find? id = some node → node.configured = true →
        (∃ sla, node.sla = some sla ∧
          node.remaining + limiter.tree.nodes.childrenShare id = sla.cir) ∧
        limiter.tree.ParentInPlace node) ∧
      (∀ call : Call, call.PostsExactly limiter.tree) ∧
      ∀ operation : Operation,
        Steps (fun tree call => call.PostsExactly tree) limiter (operation.run limiter).2 := by
  constructor
  · intro device bare ready prepared
    rcases prepare_eq_ok.1 prepared with ⟨profile_valid, config_valid, made, -⟩
    have sound := wellFormed_rootsOnly profile_valid config_valid made
    exact (Steps.exact sound (Stepwise.bootstrap.undoOnError Stepwise.tearDown ⟨bare, ready⟩)).1
  · intro limiter reached
    have sound := reached.wellFormed
    refine ⟨?_, fun call => call.postsExactly sound, ?_⟩
    · intro id node found bound
      rcases sound.bound id node found bound with ⟨sla, carried, -⟩
      have balanced := sound.balanced id node found bound
      simp only [Node.cir, carried] at balanced
      exact ⟨⟨sla, carried, balanced⟩, sound.parents id node found bound⟩
    · intro operation
      exact (Steps.exact sound (Stepwise.run operation limiter)).1

/-- Budgets are conserved in a run on a bench: while it comes up, at its first leaf, and as it is torn
down. -/
theorem budgets_conserved_on_bench :
    (∃ bare ready, prepare Profile.gen4 smallConfig Bench.fresh = (.ok bare, ready) ∧
      Steps (fun tree call => call.PostsExactly tree) ⟨bare, ready⟩
        ((bootstrap.undoOnError tearDown) (⟨bare, ready⟩ : Limiter Bench)).2) ∧
    ∃ limiter, Reachable Profile.gen4 smallConfig (Eq Bench.fresh) (fun _ _ => False) limiter ∧
      ∃ leaf sla, limiter.tree.nodes.find? firstLeaf.node = some leaf ∧ leaf.sla = some sla ∧
        leaf.remaining + limiter.tree.nodes.childrenShare firstLeaf.node = sla.cir ∧
        limiter.tree.ParentInPlace leaf ∧
        Steps (fun tree call => call.PostsExactly tree) limiter (Operation.exit.run limiter).2 := by
  rcases budgets_conserved Profile.gen4 smallConfig (Eq Bench.fresh) (fun _ _ => False) with
    ⟨started, reached⟩
  have passed : comesUp (fun _ => true) = true := by decide +kernel
  rcases exists_start passed with ⟨tree, after, up, -⟩
  rcases start_eq_ok up with ⟨bare, ready, prepared, -⟩
  rcases exists_reachable rfl with ⟨limiter, reachable, -, leaf, found, bound⟩
  rcases reached limiter reachable with ⟨conserved, -, operations⟩
  rcases conserved _ leaf found bound with ⟨⟨sla, carried, balanced⟩, placed⟩
  exact ⟨⟨bare, ready, prepared, started _ _ _ prepared⟩, limiter, reachable, leaf, sla, found,
    carried, balanced, placed, operations .exit⟩

end Limiter

end RateTree
