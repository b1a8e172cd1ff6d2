import RateTree.Proofs.Checks
import RateTree.Proofs.WellFormed

/-!
# Nodes come and go

A node is made in the lowest free slot of its level and removed from its slot once it carries no
agreement. Neither touches a budget: a slot that is refilled held no agreement before and holds none
afterwards. The tree that has the roots of a configuration and nothing else is the first well-formed
tree of a run.
-/

namespace RateTree

theorem Census.get_addNode (census : Census) (kind level : NodeKind) :
    (census.addNode kind).nodes.get level =
      census.nodes.get level + if level = kind then 1 else 0 := by
  rw [addNode, PerKind.get_set]
  split
  · next same => rw [same]
  · rfl

namespace NodeStore

variable {store after : NodeStore} {id : NodeId} {kind : NodeKind}

/-- The slot of an identifier was given another content, and neither content carries an agreement. -/
structure Refilled (before after : NodeStore) (id : NodeId) (kind : NodeKind)
    (content : Option Node) : Prop where
  known : id.kind? = some kind
  fits : id.index < (before.slots.get kind).length
  idle : ∀ node, before.find? id = some node → node.configured = false
  fresh : ∀ node, content = some node → node.configured = false
  after_eq : after = before.setSlot kind id.index content

namespace Refilled

variable {content : Option Node}

theorem found (refilled : store.Refilled after id kind content) (other : NodeId) :
    after.find? other = if other = id then content else store.find? other := by
  rw [refilled.after_eq]
  exact find?_setSlot content refilled.known refilled.fits other

theorem sized (refilled : store.Refilled after id kind content) (level : NodeKind) :
    (after.slots.get level).length = (store.slots.get level).length := by
  rw [refilled.after_eq]
  exact length_setSlot _ _ _ _

/-- The configured nodes are the same as before. -/
theorem configured (refilled : store.Refilled after id kind content) {other : NodeId} {node : Node}
    (bound : node.configured = true) :
    after.find? other = some node ↔ store.find? other = some node := by
  rw [refilled.found]
  split
  · next same =>
    subst same
    constructor
    · intro held
      rw [refilled.fresh node held] at bound
      contradiction
    · intro held
      rw [refilled.idle node held] at bound
      contradiction
  · rfl

/-- A sum over the nodes of a level changes by what comes and goes. -/
theorem total (refilled : store.Refilled after id kind content) (level : NodeKind)
    (weight : Node → Nat) :
    after.totalOn level weight +
        (if level = kind then contribution weight (store.find? id) else 0) =
      store.totalOn level weight + (if level = kind then contribution weight content else 0) := by
  rw [refilled.after_eq, find?_eq_slot refilled.known]
  exact totalOn_setSlot content refilled.fits level weight

/-- What does not count nodes without an agreement is the same as before. -/
theorem total_eq (refilled : store.Refilled after id kind content) (level : NodeKind)
    {weight : Node → Nat} (weightless : ∀ node, node.configured = false → weight node = 0) :
    after.totalOn level weight = store.totalOn level weight := by
  have nothing (held : Option Node) (vacant : ∀ node, held = some node → node.configured = false) :
      contribution weight held = 0 := by
    cases held with
    | none => rfl
    | some node => exact weightless node (vacant node rfl)
  have total := refilled.total level weight
  rw [nothing _ refilled.idle, nothing _ refilled.fresh] at total
  simpa using total

theorem childrenShare (refilled : store.Refilled after id kind content) (parent : NodeId) :
    after.childrenShare parent = store.childrenShare parent := by
  have same (level : NodeKind) := refilled.total_eq level fun node vacant =>
    Node.shareUnder_of_vacant vacant parent
  rw [childrenShare_eq, childrenShare_eq, same, same, same]

/-- A census follows when it counts what comes and goes. -/
theorem counts (refilled : store.Refilled after id kind content) {census next : Census}
    (counted : Tree.Counts census store) (slas_eq : next.slas = census.slas)
    (nodes_eq : ∀ level, next.nodes.get level +
        (if level = kind then contribution (fun _ => 1) (store.find? id) else 0) =
      census.nodes.get level + (if level = kind then contribution (fun _ => 1) content else 0)) :
    Tree.Counts next after := by
  intro level
  have lengths := refilled.total level fun _ => 1
  have weightless : ∀ node : Node, node.configured = false →
      (if node.configured then 1 else 0) = 0 := by
    intro node vacant
    simp [vacant]
  have bound := refilled.total_eq level weightless
  have was := counted level
  have nodes := nodes_eq level
  rw [length_nodes_eq_totalOn, countP_nodes_eq_totalOn] at was ⊢
  rw [slas_eq]
  constructor <;> omega

/-- A new node is one more of its level. -/
theorem counts_addNode {node : Node} (refilled : store.Refilled after id kind (some node))
    (free : store.find? id = none) {census : Census} (counted : Tree.Counts census store) :
    Tree.Counts (census.addNode kind) after := by
  refine refilled.counts counted rfl ?_
  intro level
  rw [free]
  simp only [Census.get_addNode, contribution, ite_self, Nat.add_zero]

end Refilled

/-- How making a node ends: it goes into the lowest slot that is free, or none is. -/
inductive Allots (store : NodeStore) (kind : NodeKind) (service : Service) :
    Except Error (NodeId × NodeStore) → Prop where
  | lowest {index : Nat} {after : NodeStore} (inside : index < kind.capacity)
      (free : store.find? (.ofSlot kind index) = none)
      (taken : ∀ lower < index, (store.find? (.ofSlot kind lower)).isSome = true)
      (refilled : store.Refilled after (.ofSlot kind index) kind
        (some (Node.fresh (.ofSlot kind index) kind service))) :
      Allots store kind service (.ok (.ofSlot kind index, after))
  | exhausted (full : ∀ index < kind.capacity, (store.find? (.ofSlot kind index)).isSome = true) :
      Allots store kind service (.error (.slotsExhausted kind))

theorem allocate_allots (service : Service)
    (sized : (store.slots.get kind).length = kind.capacity) :
    store.Allots kind service (store.allocate kind service) := by
  have held {index : Nat} (fits : index < kind.capacity) :
      store.find? (.ofSlot kind index) = (store.slots.get kind).get ⟨index, sized ▸ fits⟩ := by
    rw [find?_ofSlot kind (fits.trans_le kind.capacity_le)]
    simp [slot, sized, fits]
  simp only [allocate]
  split
  · next index first =>
    rcases List.findIdx?_eq_some_iff_getElem.1 first with ⟨fits, vacant, earlier⟩
    have inside := sized ▸ fits
    have free : store.find? (.ofSlot kind index) = none := by
      rw [held inside]
      exact Option.isNone_iff_eq_none.1 vacant
    have index_eq := NodeId.index_ofSlot kind (inside.trans_le kind.capacity_le)
    refine .lowest inside free ?_ ?_
    · intro lower below
      rw [held (below.trans inside)]
      simpa [Option.isSome_iff_ne_none] using earlier lower below
    · exact
        { known := NodeId.kind?_ofSlot kind index
          fits := by rwa [index_eq]
          idle := by simp [free]
          fresh := by
            rintro node ⟨⟩
            rfl
          after_eq := by rw [index_eq] }
  · next none_free =>
    refine .exhausted ?_
    intro index inside
    have taken := List.findIdx?_eq_none_iff.1 none_free _ (List.getElem_mem (sized ▸ inside))
    rw [held inside]
    simpa [Option.isSome_iff_ne_none] using taken

/-- A new node is fresh and lies in a slot that was free. -/
theorem refilled_of_allocate {service : Service}
    (sized : (store.slots.get kind).length = kind.capacity)
    (made : store.allocate kind service = .ok (id, after)) :
    store.find? id = none ∧ store.Refilled after id kind (some (Node.fresh id kind service)) := by
  have ended := allocate_allots service sized
  rw [made] at ended
  cases ended with
  | lowest inside free taken refilled => exact ⟨free, refilled⟩

/-- A removed node carried no agreement. -/
theorem refilled_of_remove {node : Node} (removed : store.remove id = .ok (node, after)) :
    ∃ kind, store.find? id = some node ∧ store.Refilled after id kind none := by
  simp only [remove] at removed
  split at removed
  · next kind held known found =>
    split at removed
    · contradiction
    · next free =>
      rw [Except.ok.injEq, Prod.mk.injEq] at removed
      rcases removed with ⟨rfl, rfl⟩
      have in_slot := found
      rw [find?_eq_slot known] at in_slot
      exact ⟨kind, found,
        { known
          fits := lt_length_of_slot in_slot
          idle := by
            intro node located
            rw [found, Option.some.injEq] at located
            rw [← located]
            simpa using free
          fresh := by
            rintro node ⟨⟩
          after_eq := rfl }⟩
  · contradiction

end NodeStore

namespace Tree

variable {tree : Tree}

/-- Refilling a slot below the roots, with no agreement before or after, keeps a tree well-formed. -/
theorem WellFormed.refill (sound : tree.WellFormed) {nodes : NodeStore} {id : NodeId}
    {kind : NodeKind} {content : Option Node} {census : Census}
    (refilled : tree.nodes.Refilled nodes id kind content) (inner : kind ≠ .root)
    (made : ∀ node, content = some node → node = Node.fresh id kind node.service ∧
      (tree.roots.id? node.service).isSome = true)
    (counted : Counts census nodes) :
    ({ tree with nodes, census } : Tree).WellFormed where
  profile_valid := sound.profile_valid
  config_valid := sound.config_valid
  enabled := sound.enabled
  sized level := (refilled.sized level).trans (sound.sized level)
  placed other node located := by
    rw [refilled.found] at located
    split at located
    · next same =>
      rw [(made node located).1, same]
      exact ⟨rfl, refilled.known⟩
    · exact sound.placed other node located
  vacant other node located free := by
    rw [refilled.found] at located
    split at located
    · rw [(made node located).1]
      rfl
    · exact sound.vacant other node located free
  bound other node located taken := by
    rcases sound.bound other node ((refilled.configured taken).1 located) taken with
      ⟨sla, carried, carries⟩
    exact ⟨sla, carried, { carries with }⟩
  parents other node located taken := by
    have place := sound.parents other node ((refilled.configured taken).1 located) taken
    simp only [ParentInPlace] at place ⊢
    split at place
    · exact place
    · rcases place with ⟨above, parent, under, there, bound, rest⟩
      exact ⟨above, parent, under, (refilled.configured bound).2 there, bound, rest⟩
  balanced other node located taken := by
    have balanced := sound.balanced other node ((refilled.configured taken).1 located) taken
    rw [← refilled.childrenShare] at balanced
    exact balanced
  apart := by
    -- A node with an agreement is not the one that was made.
    have carrier : ∀ other node sla, nodes.find? other = some node → node.sla = some sla →
        tree.nodes.find? other = some node := by
      intro other node sla located carried
      rw [refilled.found] at located
      split at located
      · rw [(made node located).1] at carried
        contradiction
      · exact located
    intro other third node thirdNode sla thirdSla different located third_located carried
      third_carried
    exact sound.apart other third node thirdNode sla thirdSla different
      (carrier other node sla located carried)
      (carrier third thirdNode thirdSla third_located third_carried) carried third_carried
  rooted service other registered := by
    rcases sound.rooted service other registered with ⟨node, located, top, same⟩
    refine ⟨node, ?_, top, same⟩
    change nodes.find? other = some node
    rw [refilled.found, if_neg, located]
    rintro rfl
    have level := (sound.placed other node located).2
    rw [refilled.known, top, Option.some.injEq] at level
    exact inner level
  registered other node located top := by
    rw [refilled.found] at located
    split at located
    · rw [(made node located).1] at top
      exact absurd top inner
    · exact sound.registered other node located top
  served other node located := by
    rw [refilled.found] at located
    split at located
    · exact (made node located).2
    · exact sound.served other node located
  counted := counted

theorem createNode_eq_ok (sound : tree.WellFormed) {kind : NodeKind} {service : Service}
    {id : NodeId} {after : Tree} (made : tree.createNode kind service = .ok (id, after)) :
    kind ≠ .root ∧ (tree.roots.id? service).isSome = true ∧ tree.nodes.find? id = none ∧
      tree.nodes.Refilled after.nodes id kind (some (Node.fresh id kind service)) ∧
      after = { tree with nodes := after.nodes, census := tree.census.addNode kind } := by
  simp only [Tree.createNode] at made
  split at made
  · contradiction
  · next inner =>
    simp only [Outcome.bind_eq_ok, rootOf_eq_ok, Outcome.pure_eq_ok, Prod.exists,
      Prod.mk.injEq] at made
    rcases made with ⟨root, registered, new, nodes, allocated, rfl, rfl⟩
    rcases NodeStore.refilled_of_allocate (sound.sized kind) allocated with ⟨free, refilled⟩
    exact ⟨inner, by rw [registered]; rfl, free, refilled, rfl⟩

theorem removeNode_eq_ok {id : NodeId} {kind : NodeKind} {after : Tree}
    (removed : tree.removeNode id kind = .ok after) :
    ∃ node level, tree.nodes.find? id = some node ∧
      tree.nodes.Refilled after.nodes id level none ∧
      after = { tree with nodes := after.nodes, census := tree.census.removeNode kind } := by
  simp only [Tree.removeNode, Outcome.bind_eq_ok, Outcome.pure_eq_ok, Prod.exists] at removed
  rcases removed with ⟨node, nodes, removed, rfl⟩
  rcases NodeStore.refilled_of_remove removed with ⟨level, found, refilled⟩
  exact ⟨node, level, found, refilled, rfl⟩

theorem WellFormed.createNode (sound : tree.WellFormed) {kind : NodeKind} {service : Service}
    {id : NodeId} {after : Tree} (made : tree.createNode kind service = .ok (id, after)) :
    after.WellFormed := by
  rcases createNode_eq_ok sound made with ⟨inner, registered, free, refilled, after_eq⟩
  rw [after_eq]
  apply sound.refill refilled inner
  · rintro node ⟨⟩
    exact ⟨rfl, registered⟩
  · exact refilled.counts_addNode free sound.counted

theorem WellFormed.removeNode (sound : tree.WellFormed) {id : NodeId} {kind : NodeKind}
    (known : id.kind? = some kind) (inner : kind ≠ .root) {after : Tree}
    (removed : tree.removeNode id kind = .ok after) : after.WellFormed := by
  rcases removeNode_eq_ok removed with ⟨node, level, found, refilled, after_eq⟩
  have same := refilled.known
  rw [known, Option.some.injEq] at same
  subst same
  rw [after_eq]
  apply sound.refill refilled inner (by rintro node ⟨⟩)
  refine refilled.counts sound.counted rfl ?_
  intro level
  have present := NodeStore.le_totalOn (sound.mem_nodes_of_find? found) fun _ => 1
  have counted := (sound.counted level).1
  rw [NodeStore.length_nodes_eq_totalOn] at counted
  have own_level : node.kind = kind := by
    have placed := (sound.placed id node found).2
    rw [known, Option.some.injEq] at placed
    exact placed.symm
  rw [own_level] at present
  rw [found]
  simp only [Census.removeNode, PerKind.get_set, NodeStore.contribution]
  by_cases here : level = kind
  · subst here
    simp only [if_true]
    omega
  · simp [here]

end Tree

/-! ## The roots -/

/-- What holds while roots are made: the store holds a fresh root for every registered service and
nothing else. -/
structure Roots.Seeded (roots : Roots) (store : NodeStore) (census : Census) : Prop where
  sized : ∀ kind, (store.slots.get kind).length = kind.capacity
  fresh : ∀ id node, store.find? id = some node → id.kind? = some .root ∧
    node = Node.fresh id .root node.service ∧ roots.id? node.service = some id
  rooted : ∀ service id, roots.id? service = some id →
    store.find? id = some (Node.fresh id .root service)
  counted : Tree.Counts census store

namespace Roots

theorem id?_set (roots : Roots) (service other : Service) (id : NodeId) :
    Roots.id? ⟨roots.ids.set service (some id)⟩ other =
      if other = service then some id else roots.id? other :=
  PerService.get_set _ _ _ _

theorem Seeded.empty : Seeded none .empty .zero := by
  exact
    { sized := by rintro (_ | _ | _) <;> rfl
      fresh := by
        intro id node found
        rw [NodeStore.find?_empty] at found
        contradiction
      rooted := by
        intro service id registered
        simp [id?, none] at registered
      counted := by rintro (_ | _ | _) <;> exact ⟨rfl, rfl⟩ }

theorem Seeded.push {roots : Roots} {store after : NodeStore} {census : Census} {service : Service}
    {id : NodeId} (seeded : Seeded roots store census) (new : roots.id? service = Option.none)
    (made : store.allocate .root service = .ok (id, after)) :
    Seeded ⟨roots.ids.set service (some id)⟩ after (census.addNode .root) := by
  rcases NodeStore.refilled_of_allocate (seeded.sized .root) made with ⟨free, refilled⟩
  exact
    { sized := fun level => (refilled.sized level).trans (seeded.sized level)
      fresh := by
        intro other node located
        rw [refilled.found] at located
        split at located
        · next same =>
          rw [Option.some.injEq] at located
          subst located same
          refine ⟨refilled.known, rfl, ?_⟩
          rw [id?_set]
          exact if_pos rfl
        · rcases seeded.fresh other node located with ⟨level, fresh, registered⟩
          refine ⟨level, fresh, ?_⟩
          rw [id?_set, if_neg, registered]
          intro same
          rw [same, new] at registered
          contradiction
      rooted := by
        intro other place registered
        rw [id?_set] at registered
        split at registered
        · next same =>
          rw [Option.some.injEq] at registered
          subst registered same
          rw [refilled.found, if_pos rfl]
        · have located := seeded.rooted other place registered
          rw [refilled.found, if_neg, located]
          rintro rfl
          rw [free] at located
          contradiction
      counted := refilled.counts_addNode free seeded.counted }

theorem extend_cons (roots : Roots) (service : Service) (rest : List Service) (store : NodeStore)
    (census : Census) :
    roots.extend (service :: rest) (store, census) =
      if (roots.id? service).isSome then
        (.error (.error (.invalidArgument (.duplicateRoot service))), (store, census))
      else
        match store.allocate .root service with
        | .ok (id, after) =>
          extend ⟨roots.ids.set service (some id)⟩ rest (after, census.addNode .root)
        | .error cause => (.error (.error cause), (store, census)) := by
  by_cases taken : (roots.id? service).isSome = true
  · rw [if_pos taken]
    simp only [extend, taken, if_true]
    rfl
  · rw [if_neg taken]
    simp only [extend, taken, Bool.false_eq_true, if_false, Action.bind_apply, Action.get_apply]
    cases made : store.allocate .root service with
    | error cause => rfl
    | ok entry => rfl

/-- What is known when roots have been made for a list: the first service had none and was given one, and
then the others were. -/
theorem extend_cons_eq_ok {roots next : Roots} {service : Service} {rest : List Service}
    {store : NodeStore} {census : Census} {final : NodeStore × Census}
    (made : roots.extend (service :: rest) (store, census) = (.ok next, final)) :
    roots.id? service = Option.none ∧ ∃ id after, store.allocate .root service = .ok (id, after) ∧
      extend ⟨roots.ids.set service (some id)⟩ rest (after, census.addNode .root) =
        (.ok next, final) := by
  rw [extend_cons] at made
  split at made
  · cases made
  · next new =>
    simp only [Bool.not_eq_true, Option.isSome_eq_false_iff, Option.isNone_iff_eq_none] at new
    split at made
    · next id after allocated => exact ⟨new, id, after, allocated, made⟩
    · cases made

/-- Making a root for each service of a list. -/
theorem Seeded.extend {services : List Service} {roots next : Roots} {store after : NodeStore}
    {census counts : Census} (seeded : Seeded roots store census)
    (made : roots.extend services (store, census) = (.ok next, (after, counts))) :
    Seeded next after counts ∧
      ∀ service, (next.id? service).isSome = true ↔
        (roots.id? service).isSome = true ∨ service ∈ services := by
  induction services generalizing roots store census with
  | nil =>
      cases made
      exact ⟨seeded, by simp⟩
  | cons service rest ih =>
      rcases extend_cons_eq_ok made with ⟨new, id, stored, allocated, later⟩
      rcases ih (seeded.push new allocated) later with ⟨grown, registered⟩
      refine ⟨grown, ?_⟩
      intro other
      rw [registered, id?_set]
      by_cases same : other = service
      · simp [same]
      · simp [same]

theorem Seeded.wellFormed {roots : Roots} {nodes : NodeStore} {census : Census}
    (seeded : Seeded roots nodes census) {profile : Profile} {config : DeviceConfig}
    (profile_valid : profile.validate = .ok ()) (config_valid : config.validate = .ok ())
    (enabled : ∀ service, (roots.id? service).isSome = true ↔ service ∈ config.services) :
    (⟨profile, config, nodes, roots, census⟩ : Tree).WellFormed := by
  have vacant : ∀ id node, nodes.find? id = some node → node.configured = false := by
    intro id node found
    rw [(seeded.fresh id node found).2.1]
    rfl
  exact
    { profile_valid, config_valid, enabled
      sized := seeded.sized
      placed := by
        intro id node found
        rcases seeded.fresh id node found with ⟨known, fresh, -⟩
        rw [fresh]
        exact ⟨rfl, known⟩
      vacant := by
        intro id node found _
        rw [(seeded.fresh id node found).2.1]
        rfl
      bound := by
        intro id node found taken
        simp [vacant id node found] at taken
      parents := by
        intro id node found taken
        simp [vacant id node found] at taken
      balanced := by
        intro id node found taken
        simp [vacant id node found] at taken
      apart := by
        intro id other node otherNode sla otherSla _ found _ carried
        rw [(seeded.fresh id node found).2.1] at carried
        contradiction
      rooted := fun service id registered =>
        ⟨_, seeded.rooted service id registered, rfl, rfl⟩
      registered := fun id node found _ => (seeded.fresh id node found).2.2
      served := by
        intro id node found
        rw [(seeded.fresh id node found).2.2]
        rfl
      counted := seeded.counted }

end Roots

end RateTree
