import RateTree.Proofs.Recreation

/-!
# New leaves in any order

Agreements for leaves can be asked for in any order: if all are granted in one order they are granted in
every other, and all orders end alike. A new leaf only takes of the budget of its cluster and of the
free rings, so what is granted after another request would have been granted before it; and what two
requests take together does not depend on which comes first.
-/

namespace RateTree

open LinkTable (Belongs)

namespace Sla

/-- The agreement that the node of a leaf keeps once a request is granted. -/
def granted (request : Sla) : Sla := { request.raisePeak with id := request.node }

/-- The node of a leaf once a request is granted. -/
def grantedNode (request : Sla) : Node :=
  (Node.fresh request.node request.kind request.service).bind request.granted request.parent

/-- What a request takes of the budget of a node. -/
def takes (request : Sla) (above : NodeId) : Nat :=
  if request.parent = some above then request.cir else 0

theorem shareUnder_grantedNode (request : Sla) (above : NodeId) :
    request.grantedNode.shareUnder above = request.takes above := by
  simp only [Node.shareUnder, takes, grantedNode, Node.bind, true_and]
  rfl

end Sla

namespace Tree

variable {tree : Tree} {request first second : Sla} {plan : CreatePlan} {node : Node}

namespace CreatePlan.Accepted

variable (accepted : plan.Accepted tree request node) (leaf : request.kind = .leaf)

include accepted leaf

theorem parent_of_leaf : plan.sla.parent = request.parent := by
  have place := accepted.parent_eq
  rw [leaf] at place
  rcases place with ⟨cluster, named, -, under⟩
  rw [named, under]

theorem sla_of_leaf : plan.sla = request.granted := by
  rw [accepted.sla_eq, accepted.parent_of_leaf leaf]
  rfl

theorem bind_of_leaf (sound : tree.WellFormed) :
    node.bind plan.sla plan.sla.parent = request.grantedNode := by
  have id_eq := (sound.placed _ node accepted.found).1
  have fresh := sound.vacant _ node accepted.found accepted.vacant
  rw [id_eq, accepted.kind_eq, accepted.service_eq] at fresh
  rw [fresh, accepted.parent_of_leaf leaf, accepted.sla_of_leaf leaf, Sla.grantedNode]

/-- The tree with a new leaf, node by node. -/
theorem find?_of_leaf (sound : tree.WellFormed) (other : NodeId) :
    (tree.commitCreate plan).nodes.find? other =
      if other = request.node then some request.grantedNode
      else (tree.nodes.find? other).map fun current =>
        { current with remaining := current.remaining - request.takes other } := by
  rcases accepted.rebound sound with ⟨remainder, rebound, settled⟩
  rw [accepted.bind_of_leaf leaf sound] at rebound settled
  rw [rebound.found]
  split
  · rfl
  · cases found : tree.nodes.find? other with
    | none => rfl
    | some current =>
        have balance := settled other current found
        rw [request.shareUnder_grantedNode] at balance
        simp only [Option.map_some, ← balance, Nat.add_sub_cancel]

theorem takes_eq_zero {id : NodeId} (level : id.kind? = some .leaf) : request.takes id = 0 := by
  have place := accepted.parent_eq
  rw [leaf] at place
  rcases place with ⟨cluster, named, inside, -⟩
  rw [Sla.takes, named, if_neg]
  rintro ⟨⟩
  rw [(NodeId.inRange_iff.1 inside).1] at level
  contradiction

theorem childrenShare_of_leaf (sound : tree.WellFormed) (above : NodeId) :
    (tree.commitCreate plan).nodes.childrenShare above =
      tree.nodes.childrenShare above + request.takes above := by
  rcases accepted.rebound sound with ⟨remainder, rebound, -⟩
  have shared := rebound.childrenShare above
  rwa [accepted.bind_of_leaf leaf sound, Node.shareUnder_of_vacant accepted.vacant,
    request.shareUnder_grantedNode] at shared

end CreatePlan.Accepted

namespace WellFormed

/-! ## Two leaves -/

theorem ne_of_comesUnder (sound : tree.WellFormed) (accepted : plan.Accepted tree request node)
    (leaf : request.kind = .leaf) {later : Sla} (later_leaf : later.kind = .leaf) {above : NodeId}
    (comes : tree.ComesUnder later above) : above ≠ request.node := by
  rintro rfl
  simp only [ComesUnder, later_leaf] at comes
  have known := accepted.known sound
  rw [(NodeId.inRange_iff.1 comes.2).1, accepted.kind_eq, leaf, Option.some.injEq] at known
  contradiction

theorem asks_before (sound : tree.WellFormed) (accepted : plan.Accepted tree request node)
    {later : Sla} (asks : (tree.commitCreate plan).Asks later) :
    later.node ≠ request.node ∧ tree.Asks later := by
  rcases accepted.rebound sound with ⟨remainder, rebound, -⟩
  rcases asks.vacant with ⟨vacant, found, free, kind_eq, service_eq⟩
  rcases rebound.eq_or_before found with ⟨-, rfl⟩ | ⟨different, before, was, rfl⟩
  · contradiction
  · exact ⟨different, ⟨before, was, free, kind_eq, service_eq⟩, asks.owner⟩

theorem asks_after (sound : tree.WellFormed) (accepted : plan.Accepted tree request node)
    {other : Sla} (asks : tree.Asks other) (different : other.node ≠ request.node) :
    (tree.commitCreate plan).Asks other := by
  rcases accepted.rebound sound with ⟨remainder, rebound, -⟩
  rcases asks.vacant with ⟨vacant, found, free, kind_eq, service_eq⟩
  exact ⟨⟨_, rebound.find?_other different found, free, kind_eq, service_eq⟩, asks.owner⟩

theorem admits_before (sound : tree.WellFormed) (accepted : plan.Accepted tree request node)
    (leaf : request.kind = .leaf) {later : Sla} (later_leaf : later.kind = .leaf)
    (admits : (tree.commitCreate plan).Admits later) : tree.Admits later := by
  rcases accepted.rebound sound with ⟨remainder, rebound, -⟩
  refine ⟨⟨admits.rates.cir_le_max, admits.rates.pir_le_max, admits.rates.worth⟩, ?_, ?_⟩
  · intro inner
    rcases admits.room inner with ⟨above, comes, room⟩
    have comes_before : tree.ComesUnder later above := by
      simpa only [ComesUnder, later_leaf] using comes
    have different := sound.ne_of_comesUnder accepted leaf later_leaf comes_before
    rcases (hasRoom_iff_of_rebound rebound different).1 room with
      ⟨parent, sla, found, serves, bound, carried, sum_le, peak_le⟩
    rw [accepted.childrenShare_of_leaf leaf sound] at sum_le
    exact ⟨above, comes_before, parent, sla, found, serves, bound, carried, by omega, peak_le⟩
  · intro id held sla found level bound carried
    have different : id ≠ request.node := by
      rintro rfl
      rw [accepted.found, Option.some.injEq] at found
      rw [← found, accepted.vacant] at bound
      contradiction
    exact admits.rings_free id _ sla (rebound.find?_other different found) level bound carried

/-- A request that is admitted first, and after which another one is admitted, is also admitted after
the other one. -/
theorem admits_after (sound : tree.WellFormed) (first_leaf : first.kind = .leaf)
    (second_leaf : second.kind = .leaf) {one front : CreatePlan} {firstNode secondNode : Node}
    (accepted : one.Accepted tree first firstNode)
    (admits : (tree.commitCreate one).Admits second)
    (early : front.Accepted tree second secondNode) (admits_first : tree.Admits first) :
    (tree.commitCreate front).Admits first := by
  rcases accepted.rebound sound with ⟨remainder, rebound, -⟩
  rcases early.rebound sound with ⟨earlyRemainder, early_rebound, -⟩
  have rates := admits_first.rates
  refine ⟨⟨rates.cir_le_max, rates.pir_le_max, rates.worth⟩, ?_, ?_⟩
  · intro inner
    rcases admits_first.room inner with ⟨above, comes, room⟩
    have apart := sound.ne_of_comesUnder early second_leaf first_leaf comes
    refine ⟨above, by simpa only [ComesUnder, first_leaf] using comes, ?_⟩
    rw [hasRoom_iff_of_rebound early_rebound apart, early.childrenShare_of_leaf second_leaf sound]
    rcases room with ⟨parent, sla, found, serves, bound, carried, sum_le, peak_le⟩
    refine ⟨parent, sla, found, serves, bound, carried, ?_, peak_le⟩
    by_cases shared : second.parent = some above
    · -- Both leaves come under one cluster, which had room for the second beside the first.
      rcases admits.room (by simp [second_leaf]) with ⟨target, comes_second, room_second⟩
      have comes_early : tree.ComesUnder second target := by
        simpa only [ComesUnder, second_leaf] using comes_second
      have elsewhere := sound.ne_of_comesUnder accepted first_leaf second_leaf comes_early
      simp only [ComesUnder, second_leaf, shared, Option.some.injEq] at comes_early
      rcases comes_early with ⟨rfl, -⟩
      rw [hasRoom_iff_of_rebound rebound elsewhere,
        accepted.childrenShare_of_leaf first_leaf sound] at room_second
      rcases room_second with ⟨same, agreement, found_again, -, -, carried_again, both_le, -⟩
      rw [found, Option.some.injEq] at found_again
      subst found_again
      rw [carried, Option.some.injEq] at carried_again
      subst carried_again
      simp only [ComesUnder, first_leaf] at comes
      rw [Sla.takes, if_pos comes.1] at both_le
      rw [Sla.takes, if_pos shared]
      omega
    · rwa [Sla.takes, if_neg shared, Nat.add_zero]
  · intro id leaf sla found level bound carried
    rcases early_rebound.eq_or_before found with ⟨-, rfl⟩ | ⟨-, before, was, rfl⟩
    · -- No ring of the second leaf is one of the first, and so the other way round.
      have sla_eq : sla = second.granted := by
        rw [early.bind_of_leaf second_leaf sound] at carried
        exact (Option.some.inj carried).symm
      have bound_first := rebound.is
      rw [accepted.bind_of_leaf first_leaf sound] at bound_first
      have apart := admits.rings_free first.node first.grantedNode first.granted bound_first first_leaf
        rfl rfl
      rw [sla_eq]
      exact apart.symm
    · exact admits_first.rings_free id before sla was level bound carried

/-- Two leaves that are granted one after the other are granted the other way round, and both ways end
in one tree. -/
theorem create_swap (sound : tree.WellFormed) (first_leaf : first.kind = .leaf)
    (second_leaf : second.kind = .leaf) {one two : CreatePlan}
    (planned : tree.planCreate first = .ok one)
    (planned_second : (tree.commitCreate one).planCreate second = .ok two) :
    ∃ front back, tree.planCreate second = .ok front ∧
      (tree.commitCreate front).planCreate first = .ok back ∧
      (tree.commitCreate front).commitCreate back = (tree.commitCreate one).commitCreate two := by
  rcases planCreate_accepted planned with ⟨firstNode, accepted⟩
  rcases planCreate_accepted planned_second with ⟨secondNode, accepted_second⟩
  have between := sound.commitCreate planned
  have admits := between.admits_of_planned planned_second
  rcases sound.asks_before accepted (asks_of_planned planned_second) with ⟨different, asks⟩
  rcases sound.planned_of_admits asks (sound.admits_before accepted first_leaf second_leaf admits) with
    ⟨front, early⟩
  rcases planCreate_accepted early with ⟨earlyNode, accepted_early⟩
  have between_early := sound.commitCreate early
  rcases between_early.planned_of_admits
    (sound.asks_after accepted_early (asks_of_planned planned) different.symm)
    (sound.admits_after first_leaf second_leaf accepted admits accepted_early
      (sound.admits_of_planned planned)) with ⟨back, late⟩
  rcases planCreate_accepted late with ⟨lateNode, accepted_late⟩
  refine ⟨front, back, early, late, ?_⟩
  refine (between_early.commitCreate late).eq_of_find? (between.commitCreate planned_second) rfl rfl rfl
    ?_
  intro other
  rw [accepted_late.find?_of_leaf first_leaf between_early,
    accepted_early.find?_of_leaf second_leaf sound,
    accepted_second.find?_of_leaf second_leaf between, accepted.find?_of_leaf first_leaf sound]
  have nothing_of_first : second.takes first.node = 0 := by
    apply accepted_early.takes_eq_zero second_leaf
    rw [accepted.known sound, accepted.kind_eq, first_leaf]
  have nothing_of_second : first.takes second.node = 0 := by
    apply accepted.takes_eq_zero first_leaf
    rw [accepted_early.known sound, accepted_early.kind_eq, second_leaf]
  by_cases at_first : other = first.node
  · simp [at_first, different.symm, nothing_of_first]
  · by_cases at_second : other = second.node
    · simp [at_second, different, nothing_of_second]
    · -- What two requests take of a budget adds up either way.
      cases tree.nodes.find? other with
      | none => simp [at_first, at_second]
      | some node => simp [at_first, at_second, Nat.sub_right_comm]

end WellFormed

/-! ## Any number of leaves -/

/-- One tree leads to another by new agreements, granted one after the other. -/
inductive Creates : Tree → List Sla → Tree → Prop where
  | nil (tree : Tree) : Creates tree [] tree
  | cons {tree last : Tree} {request : Sla} {requests : List Sla} {plan : CreatePlan}
      (planned : tree.planCreate request = .ok plan)
      (rest : Creates (tree.commitCreate plan) requests last) :
      Creates tree (request :: requests) last

namespace Creates

variable {last : Tree} {requests permuted : List Sla}

/-- Leaves that are granted in one order are granted in every other, with the same tree in the end. -/
theorem perm (creates : Creates tree requests last) (sound : tree.WellFormed)
    (leaves : ∀ request ∈ requests, request.kind = .leaf) (same : requests.Perm permuted) :
    Creates tree permuted last := by
  induction same generalizing tree with
  | nil => exact creates
  | cons request same ih =>
      cases creates with
      | cons planned rest =>
          exact .cons planned (ih rest (sound.commitCreate planned)
            fun other mem => leaves other (by simp [mem]))
  | swap second first rest =>
      cases creates with
      | cons planned later =>
          cases later with
          | cons planned_second others =>
              rcases sound.create_swap (leaves first (by simp)) (leaves second (by simp)) planned
                planned_second with ⟨front, back, early, late, tree_eq⟩
              rw [← tree_eq] at others
              exact .cons early (.cons late others)
  | trans same _ first later =>
      exact later (first creates sound leaves) sound fun request mem =>
        leaves request (same.mem_iff.2 mem)

theorem still_owns (creates : Creates tree requests last) (sound : tree.WellFormed) {id : NodeId}
    {sla : Sla} {rings : List Nat} (owns : tree.Owns id sla rings) : last.Owns id sla rings := by
  induction creates with
  | nil => exact owns
  | cons planned rest ih =>
      rcases planCreate_accepted planned with ⟨node, accepted⟩
      exact ih (sound.commitCreate planned) (accepted.still_owns sound owns).2

end Creates

end Tree

namespace Bench

variable {bench after : Bench} {count : Nat}

/-- The addresses of a bench last for a number of commands. -/
def Lasts (bench : Bench) (count : Nat) : Prop :=
  bench.pool.nextAddress + count * pageSize < 2 ^ 64 + pageSize

theorem Lasts.serves (lasts : bench.Lasts (count + 1)) (attentive : bench.Attentive) :
    bench.Serves count where
  toAttentive := attentive
  room := by
    simp only [Lasts, Nat.add_one_mul] at lasts
    omega

theorem Follows.lasts_iff (follows : Follows bench after) :
    after.Lasts count ↔ bench.Lasts (count + 1) := by
  rw [Lasts, Lasts, follows.nextAddress_eq, Nat.add_one_mul, Nat.add_right_comm, Nat.add_assoc]

/-- A command that was carried out found an address for its parameter block. -/
theorem address_lt_of_sendSla (unlimited : bench.parameterLimit = none) {command : AdminCommand}
    (no_reset : command ≠ .init) {id : NodeId} {kind : NodeKind} (known : id.kind? = some kind)
    {service : Service} {tokens : Tokens} {rings : List Nat}
    (sent : AdminChannel.sendSla command id service tokens rings bench = (.ok (), after)) :
    bench.pool.nextAddress < 2 ^ 64 := by
  simp only [AdminChannel.sendSla, if_neg no_reset, known] at sent
  rcases Action.bind_eq_ok.1 sent with ⟨ids, between, checked, lending⟩
  rw [Action.liftError_apply, Prod.mk.injEq] at checked
  rcases checked with ⟨-, rfl⟩
  have lends := withBlock_lends unlimited fun block => do
    if command ≠ .delete then
      BlockMemory.fill block (SlaParameters.encode ⟨tokens, ids⟩)
    AdminChannel.roundTrip (AdminChannel.slaRequest command kind id service ids.length block.iova)
  rw [lending] at lends
  cases lends with
  | lent positive room ended => exact room

end Bench

namespace Limiter

open Bench (Direct Ready Attentive)

variable {tree last : Tree} {bench : Bench} {requests permuted : List Sla}

theorem address_lt_of_applyCreate (unlimited : bench.parameterLimit = none) {plan : Tree.CreatePlan}
    {kind : NodeKind} (known : plan.sla.node.kind? = some kind) {after : Bench}
    (applied : applyCreate plan bench = (.ok (), after)) : bench.pool.nextAddress < 2 ^ 64 := by
  rcases Action.bind_eq_ok.1 applied with ⟨⟨⟩, linked, linking, sending⟩
  have only := ((Bench.link_total _ _ _).of_ok linking).2
  have still : linked.parameterLimit = none ∧ linked.pool = bench.pool := by
    rcases only with ⟨registers, rfl⟩
    exact ⟨unlimited, rfl⟩
  rw [← still.2]
  exact Bench.address_lt_of_sendSla still.1 (by decide) known (Action.undoOnError_eq_ok sending)

/-- Asks for new agreements, one after the other, up to the first that is refused. -/
def createAll {δ : Type} [RegisterAccess δ] [BlockMemory δ] [AdminTransport δ]
    (requests : List Sla) : Action (Limiter δ) Unit :=
  Action.forEach requests fun request => do let _ ← createSla request

theorem createAll_cons {δ : Type} [RegisterAccess δ] [BlockMemory δ] [AdminTransport δ]
    {request : Sla} {limiter between : Limiter δ} {id : NodeId}
    (created : createSla request limiter = (.ok id, between)) :
    createAll (request :: requests) limiter = createAll requests between := by
  simp only [createAll, Action.forEach, Action.bind_apply, created, Action.pure_apply]

/-- If a bench that answers grants a list of requests, they are all planned one after the other, and
there are addresses for all of them. -/
theorem creates_of_createAll (sound : tree.WellFormed) (attentive : bench.Attentive)
    (agrees : Agrees tree bench) (lasts : bench.Lasts 0)
    (granted : (createAll requests ⟨tree, bench⟩).1 = .ok ()) :
    ∃ last, tree.Creates requests last ∧ bench.Lasts requests.length := by
  induction requests generalizing tree bench with
  | nil => exact ⟨tree, .nil tree, lasts⟩
  | cons request rest ih =>
      rcases made : createSla request ⟨tree, bench⟩ with ⟨failure | id, between⟩
      · simp only [createAll, Action.forEach, Action.bind_apply, made] at granted
        cases granted
      · rcases carryOut_eq_ok made with ⟨plan, planned, applied, -, -⟩
        rcases Tree.planCreate_accepted planned with ⟨node, accepted⟩
        have known : plan.sla.node.kind? = some node.kind := by
          rw [accepted.sla_node, accepted.known sound]
        have serves : bench.Serves 0 :=
          { toAttentive := attentive
            room := by simpa using address_lt_of_applyCreate attentive.limit_eq known applied }
        rcases createSla_of_serves sound serves agrees planned with
          ⟨after, created, -, follows, still⟩
        rw [createAll_cons created] at granted
        have lasts_after : after.Lasts 0 := by
          have room := serves.address_lt
          rw [Bench.Lasts, follows.nextAddress_eq]
          omega
        rcases ih (sound.commitCreate planned) follows.toAttentive still lasts_after granted with
          ⟨last, creates, room⟩
        exact ⟨last, .cons planned creates, follows.lasts_iff.1 room⟩

/-- What a bench shows after new agreements: they are all there, and the link entries of no agreement
are as they were. -/
structure Granted (last : Tree) (before after : Bench) : Prop where
  agrees : Agrees last after
  points : Points last after
  kept : ∀ table index, index < table.extent →
    (∀ id sla rings, last.Owns id sla rings → ¬Belongs id rings table index) →
    linkEntry after table index = linkEntry before table index

/-- A bench that answers grants whatever is planned one after the other, as long as there are
addresses. -/
theorem createAll_of_creates (creates : tree.Creates requests last) (sound : tree.WellFormed)
    (attentive : bench.Attentive) (agrees : Agrees tree bench) (points : Points tree bench)
    (lasts : bench.Lasts requests.length) :
    ∃ after, createAll requests ⟨tree, bench⟩ = (.ok (), ⟨last, after⟩) ∧
      Granted last bench after := by
  induction creates generalizing bench with
  | nil tree => exact ⟨bench, rfl, agrees, points, fun _ _ _ _ => rfl⟩
  | @cons tree last request rest plan planned creates ih =>
      rcases Tree.planCreate_accepted planned with ⟨node, accepted⟩
      have committed := sound.commitCreate planned
      have owns := accepted.owns sound
      rcases createSla_of_serves sound (lasts.serves attentive) agrees planned with
        ⟨between, created, applied, follows, still⟩
      have linked := ((applyCreate_ensures (committed.fits owns)).of_ok applied).2
      rcases ih committed follows.toAttentive still (points.commitCreate sound planned linked)
        (follows.lasts_iff.2 lasts) with ⟨after, rest_created, granted⟩
      refine ⟨after, ?_, granted.agrees, granted.points, ?_⟩
      · rw [createAll_cons created, rest_created]
      · intro table index inside unowned
        rw [granted.kept table index inside unowned]
        exact linked.kept table index inside
          (unowned _ _ _ (creates.still_owns committed owns))

theorem Granted.alike {one other : Bench} (granted : Granted last bench one)
    (also : Granted last bench other) : Alike ⟨last, one⟩ ⟨last, other⟩ where
  tree_eq := rfl
  links := by
    apply granted.points.sameLinks also.points
    intro table index inside unowned
    rw [granted.kept table index inside unowned, also.kept table index inside unowned]
  entries := granted.agrees.described.lookup_eq also.agrees.described

/-- Leaves can be asked for in any order: on a bench that answers, after any run, requests for leaves
that are all granted in one order are all granted in every other, and every order ends alike. -/
theorem leaf_creation_is_order_independent {profile : Profile} {config : DeviceConfig}
    {limiter : Limiter Bench} (reached : Reachable profile config Direct Injects limiter)
    (ready : Ready limiter.device) (leaves : ∀ request ∈ requests, request.kind = .leaf)
    (same : requests.Perm permuted) (granted : (createAll requests limiter).1 = .ok ()) :
    (createAll permuted limiter).1 = .ok () ∧
      Alike (createAll requests limiter).2 (createAll permuted limiter).2 := by
  have sound := reached.wellFormed
  have agrees := reached.agrees_always
  have points := reached.points (fun _ _ => Injects.linksStay) ready.room
  rcases limiter with ⟨tree, bench⟩
  have attentive : bench.Attentive := ready.serves.toAttentive
  have lasts : bench.Lasts 0 := by
    have room : bench.pool.nextAddress < 2 ^ 64 := ready.room
    rw [Bench.Lasts]
    omega
  rcases creates_of_createAll sound attentive agrees lasts granted with ⟨last, creates, room⟩
  rcases createAll_of_creates creates sound attentive agrees points room with
    ⟨after, done, in_order⟩
  rcases createAll_of_creates (creates.perm sound leaves same) sound attentive agrees points
    (same.length_eq ▸ room) with ⟨other, also_done, reordered⟩
  rw [done, also_done]
  exact ⟨rfl, in_order.alike reordered⟩

/-- A request for a leaf of the other service, on behalf of the same function. -/
def secondLeaf : Sla := .leaf (.ofSlot .leaf 1) (.ofSlot .cluster 1) .dc ⟨0, 1⟩ 500 3000

/-- On a bench that came up, a leaf of each service is granted in both orders. -/
theorem leaf_creation_is_order_independent_on_bench :
    ∃ limiter : Limiter Bench, Reachable Profile.gen4 smallConfig Direct Injects limiter ∧
      (createAll [firstLeaf, secondLeaf] limiter).1 = .ok () ∧
      (createAll [secondLeaf, firstLeaf] limiter).1 = .ok () ∧
      Alike (createAll [firstLeaf, secondLeaf] limiter).2
        (createAll [secondLeaf, firstLeaf] limiter).2 := by
  have passed : comesUp (fun limiter => decide (Ready limiter.device ∧
      (createAll [firstLeaf, secondLeaf] limiter).1 = .ok ())) = true := by
    decide +kernel
  rcases exists_start passed with ⟨tree, bench, up, result⟩
  rcases of_decide_eq_true result with ⟨ready, granted⟩
  have direct : Direct Bench.fresh := ⟨rfl, rfl, rfl⟩
  have reached : Reachable Profile.gen4 smallConfig Direct Injects ⟨tree, bench⟩ := .started direct up
  have either := leaf_creation_is_order_independent reached ready (by decide)
    (.swap secondLeaf firstLeaf []) granted
  exact ⟨_, reached, granted, either⟩

end Limiter

end RateTree
