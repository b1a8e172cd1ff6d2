import Mathlib.Tactic.Tauto
import RateTree.Tree

/-!
# What the checks of a plan establish

Each check that a plan goes through accepts exactly under the condition given here, so that later
proofs never open a check again.
-/

namespace RateTree

theorem NodeId.checkRange_eq_ok {id : NodeId} {kind : NodeKind} {passed : Unit} :
    id.checkRange kind = .ok passed ↔ id.InRange kind := by
  by_cases inside : id.InRange kind <;> simp [NodeId.checkRange, inside]

theorem NodeId.checkKind_eq_ok {id : NodeId} {kind : NodeKind} :
    id.checkKind = .ok kind ↔ id.kind? = some kind := by
  cases known : id.kind? <;> simp [NodeId.checkKind, known]

theorem NodeStore.get_eq_ok {store : NodeStore} {id : NodeId} {node : Node} :
    store.get id = .ok node ↔ store.find? id = some node := by
  cases found : store.find? id <;> simp [NodeStore.get, found]

namespace Tree

variable {tree : Tree} {request : Sla} {service : Service} {cir pir : Nat} {passed : Unit}

theorem checkRates_eq_ok :
    tree.checkRates service cir pir = .ok passed ↔
      cir ≤ tree.profile.serviceMax service ∧ pir ≤ tree.profile.serviceMax service := by
  simp only [checkRates]
  split
  · next above =>
    simp only [reduceCtorEq, false_iff]
    omega
  · next within =>
    simp only [true_iff]
    omega

theorem checkRootRates_eq_ok :
    tree.checkRootRates service cir pir = .ok passed ↔
      cir ≤ tree.profile.serviceMax service ∧ pir ≤ tree.profile.serviceMax service := by
  by_cases within : cir ≤ tree.profile.serviceMax service ∧ pir ≤ tree.profile.serviceMax service
  · simp [checkRootRates, Profile.withinCeiling, within]
  · simp [checkRootRates, Profile.withinCeiling, within]

theorem checkNewRates_eq_ok {kind : NodeKind} :
    tree.checkNewRates kind service cir pir = .ok passed ↔
      cir ≤ tree.profile.serviceMax service ∧ pir ≤ tree.profile.serviceMax service := by
  cases kind with
  | root => exact checkRootRates_eq_ok
  | cluster => exact checkRates_eq_ok
  | leaf => exact checkRates_eq_ok

theorem rootOf_eq_ok {root : NodeId} :
    tree.rootOf service = .ok root ↔ tree.roots.id? service = some root := by
  cases registered : tree.roots.id? service <;> simp [rootOf, registered]

theorem checkOwner_eq_ok :
    tree.checkOwner request = .ok passed ↔
      (request.kind = .leaf → ∃ vf, request.owner.checkedVf tree.config.totalVfs = .ok vf) := by
  cases level : request.kind with
  | root => simp [checkOwner, level]
  | cluster => simp [checkOwner, level]
  | leaf => simp [checkOwner, level, Outcome.map_eq_ok]

theorem checkVacant_eq_ok :
    tree.checkVacant request = .ok passed ↔
      ∃ node, tree.nodes.find? request.node = some node ∧ node.configured = false ∧
        node.service = request.service ∧ node.kind = request.kind := by
  simp only [checkVacant, Outcome.bind_eq_ok, NodeStore.get_eq_ok]
  apply exists_congr
  intro node
  apply and_congr_right
  intro _
  split
  · next taken => simp [taken]
  · next free =>
    split
    · next other =>
      simp only [reduceCtorEq, false_iff]
      tauto
    · next alike =>
      simp only [Bool.not_eq_true] at free
      simp only [true_iff]
      tauto

theorem checkNewParent_eq_ok {parent : NodeId} :
    tree.checkNewParent parent service cir pir = .ok passed ↔
      ∃ node, tree.nodes.find? parent = some node ∧ node.service = service ∧
        node.configured = true ∧ cir ≤ node.remaining ∧ pir ≤ node.peak := by
  cases found : tree.nodes.find? parent with
  | none => simp [checkNewParent, found]
  | some node =>
      by_cases same : node.service = service
      · cases taken : node.configured with
        | false => simp [checkNewParent, found, same, taken]
        | true =>
            by_cases rich : cir ≤ node.remaining ∧ pir ≤ node.peak
            · simp [checkNewParent, found, same, taken, Node.canAfford, rich]
            · simp [checkNewParent, found, same, taken, Node.canAfford, rich]
      · simp [checkNewParent, found, same]

theorem resolveParent_eq_ok {root : NodeId} {parent : Option NodeId} :
    resolveParent request root = .ok parent ↔
      match request.kind with
      | .root => parent = none
      | .cluster => parent = some root
      | .leaf => ∃ cluster, request.parent = some cluster ∧ cluster.InRange .cluster ∧
          parent = some cluster := by
  cases level : request.kind with
  | root => simp [resolveParent, level, eq_comm]
  | cluster => simp [resolveParent, level, eq_comm]
  | leaf =>
      cases named : request.parent with
      | none => simp [resolveParent, level, named]
      | some cluster =>
          simp [resolveParent, level, named, Outcome.map_eq_ok, NodeId.checkRange_eq_ok,
            eq_comm (a := parent)]

theorem checkPlace_eq_ok {parent : Option NodeId} :
    tree.checkPlace request parent = .ok passed ↔
      request.cir ≤ tree.profile.serviceMax request.service ∧
        request.pir ≤ tree.profile.serviceMax request.service ∧
        ∀ above, parent = some above →
          ∃ node, tree.nodes.find? above = some node ∧ node.service = request.service ∧
            node.configured = true ∧ request.cir ≤ node.remaining ∧ request.pir ≤ node.peak := by
  cases parent with
  | none => simp [checkPlace, checkRootRates_eq_ok]
  | some above =>
      simp [checkPlace, Outcome.bind_eq_ok, checkRates_eq_ok, checkNewParent_eq_ok, and_assoc]

theorem configuredNode_eq_ok {id : NodeId} {node : Node} {sla : Sla} :
    tree.configuredNode id = .ok (node, sla) ↔
      tree.nodes.find? id = some node ∧ node.configured = true ∧ node.sla = some sla := by
  simp only [configuredNode, Outcome.bind_eq_ok, NodeStore.get_eq_ok]
  constructor
  · rintro ⟨found, located, result⟩
    cases bound : found.sla with
    | none => simp [bound, throw, throwThe, MonadExceptOf.throw] at result
    | some agreement =>
        cases taken : found.configured with
        | false => simp [bound, taken, throw, throwThe, MonadExceptOf.throw] at result
        | true =>
            simp only [bound, taken, if_true, Outcome.pure_eq_ok, Prod.mk.injEq] at result
            rcases result with ⟨rfl, rfl⟩
            exact ⟨located, taken, bound⟩
  · rintro ⟨located, taken, bound⟩
    exact ⟨node, located, by simp [bound, taken]⟩

theorem checkCovered_eq_ok {id : NodeId} {node : Node} :
    checkCovered id node cir = .ok passed ↔ node.cir - node.remaining ≤ cir := by
  by_cases covered : node.cir - node.remaining ≤ cir
  · simp [checkCovered, Node.coversChildren, Node.promised, covered]
  · simp [checkCovered, Node.coversChildren, Node.promised, covered]

theorem checkPresentParent_eq_ok {node : Node} {target : Option NodeId} :
    tree.checkPresentParent node target cir pir = .ok passed ↔
      ∀ above, target = some above → node.parent = some above →
        ∃ parent, tree.nodes.find? above = some parent ∧
          cir ≤ parent.remaining + node.cir ∧ pir ≤ parent.peak := by
  by_cases moves : target = node.parent
  · cases under : node.parent with
    | none => simp [checkPresentParent, moves, under]
    | some above =>
        simp only [checkPresentParent, moves, under, ne_eq, not_true_eq_false, if_false,
          Outcome.bind_eq_ok, NodeStore.get_eq_ok, Option.some.injEq, forall_eq', forall_const]
        apply exists_congr
        intro parent
        apply and_congr_right
        intro _
        by_cases rich : cir ≤ parent.remaining + node.cir ∧ pir ≤ parent.peak
        · simp [Node.canAffordUpdate, rich]
        · simp [Node.canAffordUpdate, rich]
  · simp only [checkPresentParent, ne_eq, moves, not_false_eq_true, if_true, true_iff]
    intro above named under
    exact absurd (named.trans under.symm) moves

theorem checkNoChildren_eq_ok {id : NodeId} {kind : NodeKind} :
    tree.checkNoChildren id kind = .ok passed ↔
      ∀ child, kind.child? = some child →
        ∀ node ∈ tree.nodes.nodes child, node.configured = true → node.parent ≠ some id := by
  cases below : kind.child? with
  | none => simp [checkNoChildren, below]
  | some child =>
      by_cases attached : tree.nodes.hasConfiguredChild child id = true
      · simp only [checkNoChildren, below, attached, if_true, reduceCtorEq, Option.some.injEq,
          forall_eq', false_iff]
        simpa [NodeStore.hasConfiguredChild] using attached
      · simp only [checkNoChildren, below, attached, Option.some.injEq, forall_eq']
        simpa [NodeStore.hasConfiguredChild] using attached

theorem targetParent_eq_ok {kind : NodeKind} {node : Node} {requested target : Option NodeId} :
    tree.targetParent kind node requested cir pir = .ok target ↔
      target = node.parent ∧ (kind = .cluster → requested = none ∨ requested = node.parent) ∧
          (kind = .leaf → requested = none ∨ requested = node.parent) ∨
        ∃ cluster, kind = .leaf ∧ requested = some cluster ∧ some cluster ≠ node.parent ∧
          target = some cluster ∧ cluster.InRange .cluster ∧
          ∃ parent, tree.nodes.find? cluster = some parent ∧ parent.service = node.service ∧
            parent.configured = true ∧ cir ≤ parent.remaining ∧ pir ≤ parent.peak := by
  cases kind with
  | root => simp [targetParent, eq_comm (a := target)]
  | cluster =>
      cases requested with
      | none => simp [targetParent, eq_comm (a := target)]
      | some above =>
          by_cases same : some above = node.parent
          · simp [targetParent, same, eq_comm (a := target)]
          · simp [targetParent, same]
  | leaf =>
      cases requested with
      | none => simp [targetParent, eq_comm (a := target)]
      | some above =>
          by_cases same : some above = node.parent
          · simp [targetParent, ← same, eq_comm (a := target)]
          · simp [targetParent, same, Outcome.bind_eq_ok, Outcome.map_eq_ok,
              NodeId.checkRange_eq_ok, checkNewParent_eq_ok]
            tauto

theorem checkRingsApart_eq_ok {rings : List Nat} {others : List Node} :
    tree.checkRingsApart rings others = .ok passed ↔
      ∀ other ∈ others, ∀ sla, other.sla = some sla →
        ∃ owned, tree.ringsOf sla = .ok owned ∧ ∀ ring ∈ rings, ring ∉ owned := by
  induction others with
  | nil => simp [checkRingsApart]
  | cons other rest ih =>
      cases bound : other.sla with
      | none => simp [checkRingsApart, bound, ih]
      | some sla =>
          simp only [checkRingsApart, bound, Outcome.bind_eq_ok, List.forall_mem_cons,
            Option.some.injEq, forall_eq']
          rw [← exists_and_right]
          apply exists_congr
          intro owned
          rw [and_assoc]
          apply and_congr_right
          intro _
          cases taken : rings.find? fun ring => owned.contains ring with
          | some ring =>
              have ring_mem := List.mem_of_find?_eq_some taken
              have owned_ring := List.find?_some taken
              simp only [List.contains_iff_mem] at owned_ring
              simp only [throw, throwThe, MonadExceptOf.throw, reduceCtorEq, false_iff]
              rintro ⟨free, -⟩
              exact free ring ring_mem owned_ring
          | none =>
              simp only [List.find?_eq_none, List.contains_iff_mem] at taken
              simp only [ih, iff_and_self]
              exact fun _ => taken

theorem checkRingsFree_eq_ok {leaf : NodeId} {rings : List Nat} :
    tree.checkRingsFree leaf rings = .ok passed ↔
      ∀ other ∈ tree.nodes.nodes .leaf, other.configured = true → other.id ≠ leaf →
        ∀ sla, other.sla = some sla →
          ∃ owned, tree.ringsOf sla = .ok owned ∧ ∀ ring ∈ rings, ring ∉ owned := by
  simp only [checkRingsFree, checkRingsApart_eq_ok, List.mem_filter, Bool.and_eq_true, bne_iff_ne,
    and_imp]

theorem checkRemovable_eq_ok {id : NodeId} {kind : NodeKind} :
    tree.checkRemovable id = .ok kind ↔
      id.kind? = some kind ∧ kind ≠ .root ∧ id.InRange kind ∧
        ∃ node, tree.nodes.find? id = some node := by
  simp only [checkRemovable, Outcome.bind_eq_ok, NodeId.checkKind_eq_ok]
  constructor
  · rintro ⟨level, known, checked⟩
    split at checked
    · contradiction
    · next inner =>
      simp only [Outcome.bind_eq_ok, NodeId.checkRange_eq_ok, NodeStore.get_eq_ok,
        Outcome.pure_eq_ok] at checked
      rcases checked with ⟨-, inside, node, found, rfl⟩
      exact ⟨known, inner, inside, node, found⟩
  · rintro ⟨known, inner, inside, node, found⟩
    refine ⟨kind, known, ?_⟩
    rw [if_neg inner]
    simp only [Outcome.bind_eq_ok, NodeId.checkRange_eq_ok, NodeStore.get_eq_ok,
      Outcome.pure_eq_ok]
    exact ⟨(), inside, node, found, trivial⟩

end Tree

end RateTree
