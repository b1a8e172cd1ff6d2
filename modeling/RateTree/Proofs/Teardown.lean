import RateTree.Proofs.Admission
import RateTree.Proofs.Cascade

/-!
# Tearing down

A limiter whose device answers is torn down completely, whatever state it is in: a half-built one as
well. Leaves go first, then clusters, then the agreements of the roots, so that nothing is ever in the
way of what is taken away next; and as each deletion is carried out, tables, firmware and memory are
left as clear as the tree.
-/

namespace RateTree

open Bench (Ready Serves Follows)

namespace Tree

variable {tree next last : Tree} {id other : NodeId} {ids : List NodeId} {plan : DeletePlan}

/-- How many agreements a tree has counted. -/
def agreements (tree : Tree) : Nat :=
  tree.census.slas.get .root + tree.census.slas.get .cluster + tree.census.slas.get .leaf

/-- A deletion counts one agreement less. -/
theorem WellFormed.agreements_commitDelete (sound : tree.WellFormed)
    (planned : tree.planDelete id = .ok plan) :
    (tree.commitDelete plan).agreements + 1 = tree.agreements := by
  rcases planDelete_accepted planned with ⟨node, accepted⟩
  have some_counted : 0 < tree.census.slas.get node.kind := by
    rw [(sound.counted node.kind).2, List.countP_pos_iff]
    exact ⟨node, sound.mem_nodes_of_find? accepted.found, accepted.bound⟩
  simp only [agreements, Tree.commitDelete, Census.removeSla, PerKind.get_set, accepted.kind_eq sound]
  cases level : node.kind <;> rw [level] at some_counted <;> simp <;> omega

/-- Whether two trees have nodes of the same levels at the same places. -/
def SamePlaces (tree next : Tree) : Prop :=
  ∀ id, (next.nodes.find? id).map Node.kind = (tree.nodes.find? id).map Node.kind

theorem SamePlaces.trans (first : SamePlaces tree next) (second : SamePlaces next last) :
    SamePlaces tree last :=
  fun id => (second id).trans (first id)

theorem WellFormed.samePlaces_commitDelete (sound : tree.WellFormed)
    (planned : tree.planDelete id = .ok plan) : SamePlaces tree (tree.commitDelete plan) := by
  rcases planDelete_accepted planned with ⟨node, accepted⟩
  rcases accepted.rebound sound with ⟨remainder, rebound, -⟩
  intro other
  rw [rebound.found]
  split
  · next same =>
    subst same
    rw [accepted.found]
    rfl
  · rw [Option.map_map]
    rfl

theorem SamePlaces.before (same : SamePlaces tree next) {node : Node}
    (found : next.nodes.find? id = some node) :
    ∃ held, tree.nodes.find? id = some held ∧ held.kind = node.kind := by
  have place := same id
  rwa [found, Option.map_some, eq_comm, Option.map_eq_some_iff] at place

theorem SamePlaces.after (same : SamePlaces tree next) {node : Node}
    (found : tree.nodes.find? id = some node) :
    ∃ left, next.nodes.find? id = some left ∧ left.kind = node.kind := by
  have place := same id
  rwa [found, Option.map_some, Option.map_eq_some_iff] at place

/-- Nothing hangs below a node of a tree that has roots only. -/
theorem WellFormed.childless_of_onlyRoots (sound : tree.WellFormed)
    (only_roots : ∀ id node, tree.nodes.find? id = some node → node.kind = .root) (other : NodeId)
    (child : Node) (located : tree.nodes.find? other = some child)
    (bound : child.configured = true) : child.parent ≠ some id := by
  intro under
  rcases sound.exists_parent located bound under with ⟨-, above, -, -, level, -⟩
  rw [only_roots other child located] at level
  contradiction

namespace Deletes

theorem samePlaces (deletes : Deletes tree ids last) (sound : tree.WellFormed) :
    SamePlaces tree last := by
  induction deletes with
  | nil tree => exact fun _ => rfl
  | cons planned _ ih =>
      exact (sound.samePlaces_commitDelete planned).trans (ih (sound.commitDelete planned))

theorem snoc (deletes : Deletes tree ids last) (planned : last.planDelete id = .ok plan) :
    Deletes tree (ids ++ [id]) (last.commitDelete plan) := by
  induction deletes with
  | nil tree => exact .cons planned (.nil _)
  | cons first _ ih => exact .cons first (ih planned)

end Deletes

/-- Whether one tree is left of another when a node is removed, as far as places go. -/
structure Loses (tree : Tree) (id : NodeId) (next : Tree) : Prop where
  gone : next.nodes.find? id = none
  others : ∀ other, other ≠ id →
    (next.nodes.find? other).map Node.kind = (tree.nodes.find? other).map Node.kind

theorem Loses.before (loses : tree.Loses id next) {node : Node}
    (found : next.nodes.find? other = some node) :
    other ≠ id ∧ ∃ held, tree.nodes.find? other = some held ∧ held.kind = node.kind := by
  have different : other ≠ id := by
    rintro rfl
    rw [loses.gone] at found
    contradiction
  have same := loses.others other different
  rw [found, Option.map_some, eq_comm, Option.map_eq_some_iff] at same
  exact ⟨different, same⟩

end Tree

namespace Limiter

/-- A limiter that can be torn down: its tree, its tables and its firmware agree, no memory is handed out,
and the device will carry out as many commands as there are agreements. -/
structure Closing (limiter : Limiter Bench) : Prop where
  formed : limiter.tree.WellFormed
  agrees : Agrees limiter.tree limiter.device
  mirrors : Mirrors limiter.tree limiter.device
  idle : outstanding limiter.device = 0
  serves : limiter.device.Serves limiter.tree.agreements

variable {limiter : Limiter Bench} {id : NodeId}

namespace Closing

/-- A deletion that is planned is carried out. -/
theorem deleteSla (closing : Closing limiter) {plan : Tree.DeletePlan}
    (planned : limiter.tree.planDelete id = .ok plan) :
    Action.Ensures (fun _ => True) (Limiter.deleteSla id) limiter
      (fun _ after => after.tree = limiter.tree.commitDelete plan ∧ Closing after)
      fun _ => False := by
  rcases limiter with ⟨tree, bench⟩
  have sound : tree.WellFormed := closing.formed
  have fewer := sound.agreements_commitDelete planned
  have serves : bench.Serves ((tree.commitDelete plan).agreements + 1) := by
    rw [fewer]
    exact closing.serves
  rcases deleteSla_of_serves sound serves closing.agrees planned with
    ⟨after, run, applied, follows, agrees⟩
  rcases Tree.planDelete_accepted planned with ⟨node, accepted⟩
  have relinked := ((applyDelete_relinks sound planned).of_ok applied).2 closing.mirrors
  have unlinked := ((applyDelete_ensures (sound.fits accepted.owns)).of_ok applied).2
  rw [Action.Ensures, run]
  exact ⟨fun _ => trivial, rfl,
    { formed := sound.commitDelete planned
      agrees
      mirrors := relinked
      idle := unlinked.outstanding_eq.trans closing.idle
      serves := follows.serves serves }⟩

theorem removeNode (closing : Closing limiter) {kind : NodeKind} (known : id.kind? = some kind)
    (inner : kind ≠ .root) {rest : Tree} (removed : limiter.tree.removeNode id kind = .ok rest) :
    Action.Ensures (fun _ => True) (Limiter.removeNode id kind) limiter
      (fun _ after => after.tree = rest ∧ Closing after) fun _ => False := by
  have run : Limiter.removeNode id kind limiter = (.ok (), { limiter with tree := rest }) := by
    simp only [Limiter.removeNode, onTree, removed]
    rfl
  have agrees := lasting_agrees.removeNode id kind closing.agrees
  have mirrors := lasting_mirrors.removeNode id kind closing.mirrors
  rw [run] at agrees mirrors
  rcases Tree.removeNode_eq_ok removed with ⟨node, level, -, -, rest_eq⟩
  have same : rest.agreements = limiter.tree.agreements := by
    rw [rest_eq]
    rfl
  have serves := closing.serves
  rw [← same] at serves
  rw [Action.Ensures, run]
  exact ⟨fun _ => trivial, rfl,
    { formed := closing.formed.removeNode known inner removed
      agrees, mirrors
      idle := closing.idle
      serves }⟩

/-- The agreement of a node that may go is taken away if there is one. -/
theorem deleteSlaIfAny (closing : Closing limiter) {node : Node}
    (found : limiter.tree.nodes.find? id = some node)
    (may_go : node.configured = true → ∃ plan, limiter.tree.planDelete id = .ok plan) :
    Action.Ensures (fun _ => True) (Limiter.deleteSlaIfAny id) limiter
      (fun _ after => Closing after ∧ limiter.tree.SamePlaces after.tree ∧
        ∀ other, other = id ∨ limiter.tree.Vacant other → after.tree.Vacant other)
      fun _ => False := by
  rw [Action.Ensures, deleteSlaIfAny_apply, found]
  by_cases bound : node.configured = true
  · rcases may_go bound with ⟨plan, planned⟩
    simp only [bound, if_true]
    refine (closing.deleteSla planned).weaken ?_ fun _ never => never
    rintro _ after ⟨tree_eq, still⟩
    rw [tree_eq]
    exact ⟨still, closing.formed.samePlaces_commitDelete planned,
      fun other gone => closing.formed.vacant_commitDelete planned gone⟩
  · simp only [if_neg bound]
    refine ⟨fun _ => trivial, closing, fun _ => rfl, ?_⟩
    rintro other (rfl | vacant)
    · intro held there
      rw [found, Option.some.injEq] at there
      subst there
      simpa using bound
    · exact vacant

/-- The agreements of the leaves below a node are taken away one after the other. -/
theorem cascade (closing : Closing limiter) (kind : NodeKind) :
    Action.Ensures (fun _ => True)
      (Action.forEach (limiter.tree.leavesBelow id kind) Limiter.deleteSla) limiter
      (fun _ after => Closing after ∧
        Tree.Deletes limiter.tree (limiter.tree.leavesBelow id kind) after.tree)
      fun _ => False := by
  have sound := closing.formed
  refine (Action.Ensures.forEach (fun rest (between : Limiter Bench) => Closing between ∧
      ∃ done, limiter.tree.leavesBelow id kind = done ++ rest ∧
        Tree.Deletes limiter.tree done between.tree) ⟨closing, [], rfl, .nil _⟩ ?_).weaken ?_
      fun _ never => never
  · rintro leaf rest between ⟨still, done, below, deletes⟩
    rcases sound.exists_planDelete_leaf below deletes with ⟨plan, planned⟩
    refine (still.deleteSla planned).weaken ?_ fun _ never => never
    rintro _ after ⟨tree_eq, after_closing⟩
    refine ⟨after_closing, done ++ [leaf], by simp [below], ?_⟩
    rw [tree_eq]
    exact deletes.snoc planned
  · rintro _ after ⟨still, done, below, deletes⟩
    rw [List.append_nil] at below
    rw [below]
    exact ⟨still, deletes⟩

/-- A cluster or a leaf is removed, with all that hangs below it. -/
theorem deleteNode (closing : Closing limiter) {node : Node}
    (found : limiter.tree.nodes.find? id = some node) (inner : node.kind ≠ .root) :
    Action.Ensures (fun _ => True) (Limiter.deleteNode id) limiter
      (fun _ after => Closing after ∧ limiter.tree.Loses id after.tree) fun _ => False := by
  have sound := closing.formed
  have known := (sound.placed id node found).2
  have in_range := NodeId.inRange_iff.2 ⟨known, sound.index_lt_capacity found⟩
  apply Action.Ensures.get.bind
  rintro _ limiter ⟨rfl, rfl⟩
  have removable := Tree.checkRemovable_eq_ok.2 ⟨known, inner, in_range, node, found⟩
  apply Action.Ensures.bind_ok (by rw [Action.liftError_apply, removable]; rfl) fun _ => trivial
  apply (closing.cascade node.kind).bind
  rintro _ between ⟨still, deletes⟩
  -- Nothing hangs below the node any more, so its own agreement may go, and then the node.
  rcases sound.exists_planDelete_own found inner known deletes with ⟨left, left_found, may_go⟩
  apply (still.deleteSlaIfAny left_found may_go).bind
  rintro _ bare ⟨bare_closing, same, vacant⟩
  have places := (deletes.samePlaces sound).trans same
  rcases places.after found with ⟨held, located, -⟩
  have idle := vacant id (.inl rfl) held located
  rcases bare_closing.formed.exists_removeNode located idle node.kind with ⟨rest, removed⟩
  refine (bare_closing.removeNode known inner removed).weaken ?_ fun _ never => never
  rintro _ after ⟨tree_eq, after_closing⟩
  rcases Tree.removeNode_eq_ok removed with ⟨_, _, -, refilled, -⟩
  rw [tree_eq]
  refine ⟨after_closing, ?_, ?_⟩
  · rw [refilled.found, if_pos rfl]
  · intro other different
    rw [refilled.found, if_neg different]
    exact places other

end Closing

/-- While the nodes of a level are removed, the rest of the list holds those that are still there. -/
structure Clearing (kind : NodeKind) (rest : List NodeId) (limiter : Limiter Bench) : Prop
    extends Closing limiter where
  listed : ∀ id node, limiter.tree.nodes.find? id = some node → node.kind = kind → id ∈ rest
  once : rest.Nodup
  there : ∀ id ∈ rest, ∃ node, limiter.tree.nodes.find? id = some node ∧ node.kind = kind

theorem Closing.clearing (closing : Closing limiter) (kind : NodeKind) :
    Clearing kind (limiter.tree.nodes.ids kind) limiter where
  toClosing := closing
  listed id node found level := by
    have mem := closing.formed.mem_nodes_of_find? found
    rw [level] at mem
    exact List.mem_map.2 ⟨node, mem, (closing.formed.placed id node found).1⟩
  once := closing.formed.nodup_ids kind
  there id mem := by
    rcases List.mem_map.1 mem with ⟨node, node_mem, rfl⟩
    exact ⟨node, closing.formed.find?_of_mem_nodes node_mem⟩

/-- The next node of the level is removed. -/
theorem Clearing.deleteNode {kind : NodeKind} {rest : List NodeId}
    (clearing : Clearing kind (id :: rest) limiter) (inner : kind ≠ .root) :
    Action.Ensures (fun _ => True) (Limiter.deleteNode id) limiter
      (fun _ after => Clearing kind rest after ∧ limiter.tree.Loses id after.tree)
      fun _ => False := by
  rcases clearing.there id (by simp) with ⟨node, found, level⟩
  have once := List.nodup_cons.1 clearing.once
  rw [← level] at inner
  refine (clearing.toClosing.deleteNode found inner).weaken ?_ fun _ never => never
  rintro _ after ⟨closing, loses⟩
  refine ⟨⟨closing, ?_, once.2, ?_⟩, loses⟩
  · intro other left left_found left_level
    rcases loses.before left_found with ⟨different, held, was, same⟩
    have mem := clearing.listed other held was (same.trans left_level)
    exact (List.mem_cons.1 mem).resolve_left different
  · intro other mem
    rcases clearing.there other (by simp [mem]) with ⟨held, was, held_level⟩
    have kept := loses.others other (fun same => once.1 (same ▸ mem))
    rw [was, Option.map_some, Option.map_eq_some_iff] at kept
    rcases kept with ⟨left, left_found, same⟩
    exact ⟨left, left_found, same.trans held_level⟩

/-- A level is cleared, and nothing appears on the others. -/
theorem Closing.clearLevel (closing : Closing limiter) (kind : NodeKind) (inner : kind ≠ .root) :
    Action.Ensures (fun _ => True)
      (Action.forEach (limiter.tree.nodes.ids kind) fun id => (Limiter.deleteNode id).passOver)
      limiter
      (fun _ after => Closing after ∧ ∀ id node, after.tree.nodes.find? id = some node →
        node.kind ≠ kind ∧ ∃ held, limiter.tree.nodes.find? id = some held ∧ held.kind = node.kind)
      fun _ => False := by
  refine (Action.Ensures.forEach (fun rest (between : Limiter Bench) => Clearing kind rest between ∧
      ∀ id node, between.tree.nodes.find? id = some node →
        ∃ held, limiter.tree.nodes.find? id = some held ∧ held.kind = node.kind)
    ⟨closing.clearing kind, fun _ node found => ⟨node, found, rfl⟩⟩ ?_).weaken ?_
      fun _ never => never
  · rintro id rest between ⟨clearing, before⟩
    apply Action.Ensures.passOver_of_never
    refine (clearing.deleteNode inner).weaken ?_ fun _ never => never
    rintro _ after ⟨still, loses⟩
    refine ⟨still, ?_⟩
    intro other node found
    rcases loses.before found with ⟨-, between_node, was, between_level⟩
    rcases before other between_node was with ⟨held, at_first, level⟩
    exact ⟨held, at_first, level.trans between_level⟩
  · rintro _ after ⟨clearing, before⟩
    refine ⟨clearing.toClosing, ?_⟩
    intro id node found
    refine ⟨?_, before id node found⟩
    intro level
    exact absurd (clearing.listed id node found level) (by simp)

/-- While the agreements of the roots are taken away, the rest of the list holds those that still have
one. -/
structure Uprooting (rest : List (Service × NodeId)) (limiter : Limiter Bench) : Prop
    extends Closing limiter where
  only_roots : ∀ id node, limiter.tree.nodes.find? id = some node → node.kind = .root
  listed : ∀ id, id ∈ rest.map Prod.snd ∨ limiter.tree.Vacant id
  there : ∀ entry ∈ rest, ∃ node, limiter.tree.nodes.find? entry.2 = some node

theorem Closing.uprooting (closing : Closing limiter)
    (only_roots : ∀ id node, limiter.tree.nodes.find? id = some node → node.kind = .root) :
    Uprooting limiter.tree.roots.toList limiter where
  toClosing := closing
  only_roots := only_roots
  listed id := by
    cases found : limiter.tree.nodes.find? id with
    | none =>
        right
        intro node there
        rw [found] at there
        contradiction
    | some node =>
        left
        have registered := closing.formed.registered id node found (only_roots id node found)
        exact List.mem_map.2 ⟨_, Roots.mem_toList.2 registered, rfl⟩
  there := by
    rintro ⟨service, root⟩ mem
    rcases closing.formed.rooted service root (Roots.mem_toList.1 mem) with ⟨node, found, -⟩
    exact ⟨node, found⟩

theorem Uprooting.deleteSlaIfAny {entry : Service × NodeId} {rest : List (Service × NodeId)}
    (uprooting : Uprooting (entry :: rest) limiter) :
    Action.Ensures (fun _ => True) (Limiter.deleteSlaIfAny entry.2) limiter
      (fun _ after => Uprooting rest after) fun _ => False := by
  have sound := uprooting.formed
  rcases uprooting.there entry (by simp) with ⟨node, found⟩
  refine (uprooting.toClosing.deleteSlaIfAny found ?_).weaken ?_ fun _ never => never
  · intro bound
    exact sound.exists_planDelete found bound (sound.childless_of_onlyRoots uprooting.only_roots)
  · rintro _ after ⟨closing, same, vacant⟩
    refine ⟨closing, ?_, ?_, ?_⟩
    · intro id left left_found
      rcases same.before left_found with ⟨held, was, level⟩
      rw [← level]
      exact uprooting.only_roots id held was
    · intro id
      rcases uprooting.listed id with mem | was_vacant
      · rcases List.mem_cons.1 mem with here | later
        · exact .inr (vacant id (.inl here))
        · exact .inl later
      · exact .inr (vacant id (.inr was_vacant))
    · intro other mem
      rcases uprooting.there other (by simp [mem]) with ⟨held, was⟩
      rcases same.after was with ⟨left, left_found, -⟩
      exact ⟨left, left_found⟩

/-- Tearing a limiter down leaves it with roots that have no agreements. -/
theorem Closing.tearDown (closing : Closing limiter) :
    Action.Ensures (fun _ => True) Limiter.tearDown limiter (fun _ => Uprooting [])
      fun _ => False := by
  apply Action.Ensures.get.bind
  rintro _ limiter ⟨rfl, rfl⟩
  apply (closing.clearLevel .leaf (by decide)).bind
  rintro _ pruned ⟨pruned_closing, no_leaf⟩
  apply Action.Ensures.get.bind
  rintro _ pruned ⟨rfl, rfl⟩
  apply (pruned_closing.clearLevel .cluster (by decide)).bind
  rintro _ bare ⟨bare_closing, no_cluster⟩
  apply Action.Ensures.get.bind
  rintro _ bare ⟨rfl, rfl⟩
  have only_roots : ∀ id node, bare.tree.nodes.find? id = some node → node.kind = .root := by
    intro id node found
    rcases no_cluster id node found with ⟨not_cluster, held, was, level⟩
    have not_leaf := (no_leaf id held was).1
    rw [level] at not_leaf
    cases kind : node.kind with
    | root => rfl
    | cluster => exact absurd kind not_cluster
    | leaf => exact absurd kind not_leaf
  refine (Action.Ensures.forEach Uprooting (bare_closing.uprooting only_roots) ?_).weaken
    (fun _ _ holds => holds) fun _ never => never
  intro entry rest between uprooting
  exact Action.Ensures.passOver_of_never uprooting.deleteSlaIfAny

/-! ## What is left -/

/-- Nothing of a limiter is left but its roots, which are as they were made. -/
structure Vacated (limiter : Limiter Bench) : Prop where
  only_roots : ∀ id node, limiter.tree.nodes.find? id = some node →
    node = .fresh id .root node.service
  nodes : ∀ kind, kind ≠ .root → limiter.tree.census.nodes.get kind = 0
  slas : ∀ kind, limiter.tree.census.slas.get kind = 0
  clear : LinksClear limiter.device
  entries : limiter.device.firmware.configured = []
  idle : limiter.device.pool.outstanding = 0

theorem Uprooting.vacated (uprooting : Uprooting [] limiter) : Vacated limiter := by
  have sound := uprooting.formed
  have vacant (id : NodeId) : limiter.tree.Vacant id :=
    (uprooting.listed id).resolve_left (by simp)
  have not_owns (id : NodeId) (sla : Sla) (rings : List Nat) : ¬limiter.tree.Owns id sla rings := by
    rintro ⟨node, found, bound, -⟩
    rw [vacant id node found] at bound
    contradiction
  refine ⟨?_, ?_, ?_, ?_, ?_, uprooting.idle⟩
  · intro id node found
    have fresh := sound.vacant id node found (vacant id node found)
    rwa [(sound.placed id node found).1, uprooting.only_roots id node found] at fresh
  · intro kind inner
    rw [(sound.counted kind).1, List.length_eq_zero_iff, List.eq_nil_iff_forall_not_mem]
    intro node mem
    rcases sound.find?_of_mem_nodes mem with ⟨found, level⟩
    exact inner (level.symm.trans (uprooting.only_roots _ node found))
  · intro kind
    rw [(sound.counted kind).2, List.countP_eq_zero]
    intro node mem
    rw [vacant _ node (sound.find?_of_mem_nodes mem).1]
    decide
  · intro table index inside
    exact uprooting.mirrors.free table index inside fun id sla rings owns =>
      absurd owns (not_owns id sla rings)
  · rw [List.eq_nil_iff_forall_not_mem]
    intro entry mem
    cases found : limiter.device.firmware.configured.lookup entry.1 with
    | none =>
        have absent := List.lookup_eq_none_iff.1 found entry mem
        simp at absent
    | some parameters =>
        rcases uprooting.agrees.described.free entry.1 parameters found with
          ⟨id, sla, rings, owns, -⟩
        exact not_owns id sla rings owns

theorem Closing.vacated (closing : Closing limiter) :
    Limiter.tearDown limiter = (.ok (), exit limiter) ∧ Vacated (exit limiter) := by
  rcases closing.tearDown.exists_ok with ⟨⟨⟩, after, run, uprooting⟩
  rw [exit, run]
  exact ⟨rfl, uprooting.vacated⟩

/-! ## Whatever is under way -/

/-- A bench that a limiter is to come up on: its requests are carried out unless they fail, its tables
are clear, and no memory is handed out. -/
structure Unused (bench : Bench) : Prop extends Bench.Faithful bench where
  clear : LinksClear bench
  idle : outstanding bench = 0

/-- A move of a bench that makes requests fail without being carried out. -/
def Disturbs (before after : Bench) : Prop :=
  ∃ failNext rejectNext faults, (∀ entry ∈ faults, LinkFault.Withholds entry.2) ∧
    after = { before with
      faults, firmware := { before.firmware with failNext, rejectNext } }

theorem Agrees.of_disturbs {tree : Tree} {before after : Bench} (agrees : Agrees tree before)
    (disturbs : Disturbs before after) : Agrees tree after := by
  rcases agrees with ⟨entries, programmed, described⟩
  rcases disturbs with ⟨failNext, rejectNext, faults, withheld, rfl⟩
  exact ⟨entries, ⟨⟨programmed.carrier_eq, withheld, programmed.limit_eq⟩,
    programmed.configured_eq⟩, described⟩

theorem outstanding_of_prepare {profile : Profile} {config : DeviceConfig} {bench ready : Bench}
    {bare : Tree} (prepared : prepare profile config bench = (.ok bare, ready)) :
    outstanding ready = outstanding bench := by
  rcases prepare_eq_ok.1 prepared with ⟨-, -, -, reset, cleared, sent, first, second⟩
  have no_bell : (0 : UInt32) ≠ 1 := by decide
  have keeps := ((AdminChannel.roundTrip_ensures _).of_ok sent).2
  rcases ((Bench.write_total _ no_bell).of_ok first).2 with ⟨_, rfl⟩
  rcases ((Bench.write_total _ no_bell).of_ok second).2 with ⟨_, rfl⟩
  exact keeps.outstanding_eq

theorem Underway.closing {profile : Profile} {config : DeviceConfig}
    (underway : Underway profile config Unused Disturbs limiter)
    (serves : limiter.device.Serves limiter.tree.agreements) : Closing limiter where
  formed := underway.wellFormed
  agrees := by
    apply unbroken_agrees.underway _ _ underway
    · intro bench bare ready unused prepared
      exact agrees_of_prepare unused.toFaithful prepared
    · intro tree before after disturbs agrees
      exact agrees.of_disturbs disturbs
  mirrors := by
    refine lasting_mirrors.underway ?_ ?_ underway serves.address_lt
    · intro bench bare ready unused prepared
      exact mirrors_of_prepare unused.clear prepared
    · rintro tree before _ sound ⟨failNext, rejectNext, faults, -, rfl⟩ still
      exact ⟨still, fun mirrors => mirrors.of_sameLinks sound fun _ _ _ => rfl⟩
  idle := by
    refine (lasting_outstanding 0).underway ?_ ?_ underway serves.address_lt
    · intro bench bare ready unused prepared
      exact (outstanding_of_prepare prepared).trans unused.idle
    · rintro tree before _ sound ⟨failNext, rejectNext, faults, -, rfl⟩ still
      exact ⟨still, id⟩
  serves := serves

/-- A bench that was left as it was found: clear, with no memory handed out and no new entry. -/
structure LeftClean (before after : Bench) : Prop where
  clear : LinksClear after
  idle : outstanding after = 0
  entries : after.firmware.configured ⊆ before.firmware.configured

/-- Preparing a limiter leaves nothing behind if it fails, whatever it fails on. -/
theorem leftClean_of_prepare {profile : Profile} {config : DeviceConfig} {bench after : Bench}
    {cause : Error} (unused : Unused bench)
    (failed : prepare profile config bench = (.error (.error cause), after)) :
    LeftClean bench after := by
  have untouched : LeftClean bench bench := ⟨unused.clear, unused.idle, List.Subset.refl _⟩
  have no_bell : (0 : UInt32) ≠ 1 := by decide
  -- A check leaves the bench as it is; up to the reset there are only checks.
  rcases Action.bind_eq_error.1 failed with invalid | ⟨_, checked, valid, after_profile⟩
  · obtain rfl : bench = after := congrArg Prod.snd invalid
    exact untouched
  obtain rfl : bench = checked := congrArg Prod.snd valid
  rcases Action.bind_eq_error.1 after_profile with invalid | ⟨_, ready, valid, after_config⟩
  · obtain rfl : bench = after := congrArg Prod.snd invalid
    exact untouched
  obtain rfl : bench = ready := congrArg Prod.snd valid
  rcases Action.bind_eq_error.1 after_config with unsent | ⟨_, reset, sent, after_reset⟩
  · have kept := ((AdminChannel.roundTrip_ensures _).of_error unsent).2
    have still := ((Bench.roundTrip_programs unused.programmed _).of_error unsent).2
    refine ⟨unused.clear.of_sameLinks kept.links, kept.outstanding_eq.trans unused.idle, ?_⟩
    rw [still.configured_eq]
    exact List.Subset.refl _
  rcases Action.bind_eq_error.1 after_reset with unmade | ⟨_, _, -, after_roots⟩
  · obtain rfl : reset = after := congrArg Prod.snd unmade
    have kept := ((AdminChannel.roundTrip_ensures _).of_ok sent).2
    rcases ((Bench.roundTrip_programs unused.programmed _).of_ok sent).2 with
      ⟨given, updated, -, done, programmed⟩
    refine ⟨unused.clear.of_sameLinks kept.links, kept.outstanding_eq.trans unused.idle, ?_⟩
    rw [programmed.configured_eq]
    cases done with
    | init => exact List.nil_subset _
  rcases Action.bind_eq_error.1 after_roots with first | ⟨_, _, -, after_first⟩
  · exact ((Bench.write_total _ no_bell).of_error first).2.elim
  rcases Action.bind_eq_error.1 after_first with second | ⟨_, _, -, ⟨⟩⟩
  exact ((Bench.write_total _ no_bell).of_error second).2.elim

/-- Teardown is complete: a limiter under way on a bench that answers is torn down to its bare roots, with
nothing left on the bench, and so is the half-built one of a bringing up that fails. One that fails
earlier has left nothing behind either. -/
theorem teardown_is_complete {profile : Profile} {config : DeviceConfig} :
    (∀ limiter, Underway profile config Unused Disturbs limiter →
      limiter.device.Serves limiter.tree.agreements →
      tearDown limiter = (.ok (), exit limiter) ∧ Vacated (exit limiter)) ∧
    (∀ bench bare ready half cause, Unused bench →
      prepare profile config bench = (.ok bare, ready) →
      bootstrap ⟨bare, ready⟩ = (.error (.error cause), half) →
      half.device.Serves half.tree.agreements →
      start profile config bench = (.error (.error cause), (exit half).device) ∧
        Vacated (exit half)) ∧
    ∀ bench after cause, Unused bench →
      prepare profile config bench = (.error (.error cause), after) →
      start profile config bench = (.error (.error cause), after) ∧ LeftClean bench after := by
  refine ⟨fun limiter underway serves => (underway.closing serves).vacated, ?_, ?_⟩
  · intro bench bare ready half cause unused prepared failed serves
    have underway : Underway profile config Unused Disturbs (bootstrap ⟨bare, ready⟩).2 :=
      .bootstrap unused prepared
    rw [failed] at underway
    rcases (underway.closing serves).vacated with ⟨down, vacated⟩
    refine ⟨?_, vacated⟩
    simp only [start, prepared, Action.undoOnError, failed, down]
  · intro bench after cause unused failed
    refine ⟨?_, leftClean_of_prepare unused failed⟩
    simp only [start, failed]

/-- A bench on which one request is refused. -/
def refusingRequest (number : Nat) : Bench :=
  { Bench.fresh with faults := [(number, .status 1)] }

theorem unused_refusingRequest (number : Nat) : Unused (refusingRequest number) where
  carrier_eq := rfl
  withheld := by simp [refusingRequest, LinkFault.Withholds]
  limit_eq := rfl
  clear _ _ _ := rfl
  idle := rfl

/-- Whether a bringing up on a bench breaks off once the limiter is prepared, and the failure and what
there is of the limiter by then pass a test. -/
def breaksOff (bench : Bench) (test : Failure → Limiter Bench → Bool) : Bool :=
  match prepare Profile.gen4 smallConfig bench with
  | (.error _, _) => false
  | (.ok bare, ready) =>
      match (bootstrap ⟨bare, ready⟩ : Outcome Unit × Limiter Bench) with
      | (.error failure, half) => test failure half
      | (.ok (), _) => false

theorem exists_half {bench : Bench} {test : Failure → Limiter Bench → Bool}
    (passed : breaksOff bench test = true) :
    ∃ bare ready failure half, prepare Profile.gen4 smallConfig bench = (.ok bare, ready) ∧
      bootstrap ⟨bare, ready⟩ = (.error failure, half) ∧ test failure half = true := by
  rw [breaksOff] at passed
  rcases prepared : prepare Profile.gen4 smallConfig bench with ⟨failure | bare, ready⟩
  · rw [prepared] at passed
    contradiction
  · rw [prepared] at passed
    rcases ended : (bootstrap ⟨bare, ready⟩ : Outcome Unit × Limiter Bench) with
      ⟨failure | ⟨⟨⟩⟩, half⟩
    · simp only [ended] at passed
      exact ⟨bare, ready, failure, half, rfl, ended, passed⟩
    · simp only [ended] at passed
      contradiction

/-- On a bench, a run with a configured leaf is torn down; so is what there is of a limiter when the
firmware refuses the agreement of the second cluster, and nothing is left when it refuses the reset. -/
theorem teardown_is_complete_on_bench :
    (∃ limiter, Reachable Profile.gen4 smallConfig Unused Disturbs limiter ∧
      limiter.tree.agreements = 5 ∧ tearDown limiter = (.ok (), exit limiter) ∧
      Vacated (exit limiter)) ∧
    (∃ half, start Profile.gen4 smallConfig (refusingRequest 5) =
        (.error (.error (.admin .add (.status 1))), (exit half).device) ∧
      half.tree.agreements = 3 ∧ Vacated (exit half)) ∧
    ∃ after, start Profile.gen4 smallConfig (refusingRequest 1) =
        (.error (.error (.admin .init (.status 1))), after) ∧
      LeftClean (refusingRequest 1) after := by
  refine ⟨?_, ?_, ?_⟩
  · have passed : comesUp (fun limiter =>
        let after := withFirstLeaf limiter
        decide (Ready after.device ∧ after.tree.agreements = 5 ∧
          after.device.pool.nextAddress + 5 * pageSize < 2 ^ 64)) = true := by
      decide +kernel
    rcases exists_start passed with ⟨tree, bench, up, result⟩
    simp only [decide_eq_true_eq] at result
    rcases result with ⟨ready, agreements, room⟩
    have unused : Unused Bench.fresh := ⟨⟨rfl, by simp [Bench.fresh], rfl⟩, fun _ _ _ => rfl, rfl⟩
    have reached : Reachable Profile.gen4 smallConfig Unused Disturbs
        (withFirstLeaf ⟨tree, bench⟩) := .performed (.createSla firstLeaf) (.started unused up)
    rw [← agreements] at room
    have torn := teardown_is_complete.1 _ reached.underway ⟨ready.serves.toAttentive, room⟩
    exact ⟨_, reached, agreements, torn⟩
  · have passed : breaksOff (refusingRequest 5) (fun failure half =>
        decide (failure = .error (.admin .add (.status 1)) ∧
          half.device.carrier = .direct ∧ half.device.faults = [(5, .status 1)] ∧
          half.device.parameterLimit = none ∧ half.device.sent = 5 ∧
          half.device.firmware.initialised = true ∧ half.device.firmware.failNext = 0 ∧
          half.device.firmware.rejectNext = 0 ∧ half.tree.agreements = 3 ∧
          half.device.pool.nextAddress + 3 * pageSize < 2 ^ 64)) = true := by
      decide +kernel
    rcases exists_half passed with ⟨bare, ready, failure, half, prepared, failed, result⟩
    simp only [decide_eq_true_eq] at result
    rcases result with ⟨rfl, carrier, faults, limit, sent, up, failures, rejections, agreements,
      room⟩
    have attentive : half.device.Attentive :=
      { carrier_eq := carrier
        withheld := by simp [faults, LinkFault.Withholds]
        limit_eq := limit
        calm := by simp [faults, sent]
        firmware := ⟨up, failures, rejections⟩ }
    rw [← agreements] at room
    rcases teardown_is_complete.2.1 _ bare ready half _ (unused_refusingRequest 5) prepared failed
      ⟨attentive, room⟩ with ⟨ended, vacated⟩
    exact ⟨half, ended, agreements, vacated⟩
  · have refused : (prepare Profile.gen4 smallConfig (refusingRequest 1)).1 =
        .error (.error (.admin .init (.status 1))) := by
      decide +kernel
    exact ⟨_, teardown_is_complete.2.2 _ _ _ (unused_refusingRequest 1) (Prod.ext refused rfl)⟩

end Limiter

end RateTree
