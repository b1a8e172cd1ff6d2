import RateTree.Proofs.Postings
import RateTree.Proofs.WellFormed

/-!
# Rebinding a node

Binding an agreement, changing it and taking it away have one shape: one node gets another content,
and besides that only what remains of other budgets changes. `Rebound` says this of two stores, and
`WellFormed.rebind` says what has to hold of the new content and of the changed budgets for a
well-formed tree to stay well-formed.
-/

namespace RateTree

namespace NodeStore

/-- One store arises from another by giving the node with an identifier another content and other
nodes another remainder. -/
structure Rebound (before after : NodeStore) (id : NodeId) (old new : Node)
    (remainder : NodeId → Node → Nat) : Prop where
  kind : id.kind? = some old.kind
  was : before.find? id = some old
  found : ∀ other, after.find? other =
    if other = id then some new
    else (before.find? other).map fun node => { node with remaining := remainder other node }
  sized : ∀ level, (after.slots.get level).length = (before.slots.get level).length
  totalOn : ∀ level weight, (∀ node remaining, weight { node with remaining } = weight node) →
    after.totalOn level weight + (if level = old.kind then weight old else 0) =
      before.totalOn level weight + (if level = old.kind then weight new else 0)

namespace Rebound

variable {before after : NodeStore} {id : NodeId} {old new : Node}
  {remainder : NodeId → Node → Nat}

theorem refl (kind : id.kind? = some old.kind) (was : before.find? id = some old) :
    Rebound before before id old old fun _ node => node.remaining where
  kind := kind
  was := was
  found other := by
    split
    · next same => rw [same, was]
    · simp
  sized _ := rfl
  totalOn _ _ _ := rfl

theorem is (rebound : Rebound before after id old new remainder) : after.find? id = some new := by
  simp [rebound.found]

theorem find?_other (rebound : Rebound before after id old new remainder) {other : NodeId}
    {node : Node} (different : other ≠ id) (found : before.find? other = some node) :
    after.find? other = some { node with remaining := remainder other node } := by
  rw [rebound.found, if_neg different, found, Option.map_some]

/-- A node is the one that was rebound, or was there before with another remainder. -/
theorem eq_or_before (rebound : Rebound before after id old new remainder) {other : NodeId}
    {node : Node} (found : after.find? other = some node) :
    (other = id ∧ node = new) ∨
      (other ≠ id ∧ ∃ held, before.find? other = some held ∧
        node = { held with remaining := remainder other held }) := by
  rw [rebound.found] at found
  split at found
  · next same =>
    rw [Option.some.injEq] at found
    exact .inl ⟨same, found.symm⟩
  · next different =>
    rcases Option.map_eq_some_iff.1 found with ⟨held, was, rfl⟩
    exact .inr ⟨different, held, was, rfl⟩

/-- Another change is made to the node itself. -/
theorem change (rebound : Rebound before after id old new remainder) (change : Node → Node) :
    Rebound before (after.modify id change) id old (change new) remainder where
  kind := rebound.kind
  was := rebound.was
  found other := by
    rw [find?_modify, rebound.is]
    split
    · rfl
    · next different => rw [rebound.found, if_neg different]
  sized level := by rw [length_modify, rebound.sized]
  totalOn level weight steady := by
    have changed := totalOn_modify change rebound.kind rebound.is level weight
    have total := rebound.totalOn level weight steady
    omega

/-- Another change is made to what remains of some other node. -/
theorem adjust (rebound : Rebound before after id old new remainder) {place : NodeId}
    (different : place ≠ id) (value : Node → Nat) :
    Rebound before (after.modify place fun node => { node with remaining := value node }) id old new
      fun other node =>
        if other = place then value { node with remaining := remainder other node }
        else remainder other node where
  kind := rebound.kind
  was := rebound.was
  found other := by
    rw [find?_modify]
    by_cases same : other = place
    · subst same
      rw [if_pos rfl, if_neg different, rebound.found, if_neg different, Option.map_map]
      simp only [if_true]
      rfl
    · rw [if_neg same, rebound.found]
      simp only [same, if_false]
  sized level := by rw [length_modify, rebound.sized]
  totalOn level weight steady := by
    have total := rebound.totalOn level weight steady
    cases found : after.find? place with
    | none =>
        have unchanged : (after.modify place fun node => { node with remaining := value node }) =
            after := by
          cases known : place.kind? <;> simp only [modify, known, found]
        rw [unchanged]
        exact total
    | some node =>
        rcases kind?_isSome_of_find? found with ⟨kind, known, _⟩
        have changed := totalOn_modify (fun node => { node with remaining := value node }) known
          found level weight
        simp only [steady node (value node)] at changed
        omega

/-- A posting that changes only what remains is made to some other node. -/
theorem post (rebound : Rebound before after id old new remainder) {place : NodeId}
    (different : place ≠ id) (posting : Posting) {value : Node → Nat}
    (posted : ∀ node, posting.apply node = { node with remaining := value node }) :
    Rebound before (after.post (place, posting)) id old new
      fun other node =>
        if other = place then value { node with remaining := remainder other node }
        else remainder other node := by
  have same : posting.apply = fun node => { node with remaining := value node } := funext posted
  rw [NodeStore.post, same]
  exact rebound.adjust different value

/-- Exact transfers made to other nodes change what remains there by what they amount to. -/
theorem postAll (rebound : Rebound before after id old new remainder)
    {entries : List (NodeId × Posting)} (exactly : after.PostedExactly entries)
    (elsewhere : ∀ entry ∈ entries, entry.1 ≠ id ∧ entry.2.IsTransfer) :
    ∃ settled, Rebound before (after.postAll entries) id old new settled ∧
      ∀ other node, before.find? other = some node →
        (settled other node : Int) = remainder other node + Posting.totalAt other entries := by
  induction entries generalizing after remainder with
  | nil => exact ⟨remainder, rebound, fun _ _ _ => (Int.add_zero _).symm⟩
  | cons entry rest ih =>
      rcases exactly with ⟨⟨held, found, exact_first⟩, exact_rest⟩
      rcases elsewhere entry (.head rest) with ⟨different, transfer⟩
      rcases ih (rebound.post different entry.2 transfer.apply_eq) exact_rest
        (fun next mem => elsewhere next (.tail entry mem)) with ⟨settled, posted, total⟩
      refine ⟨settled, posted, ?_⟩
      intro other node was
      rw [total other node was, Posting.totalAt]
      by_cases here : entry.1 = other
      · subst here
        rw [rebound.find?_other different was, Option.some.injEq] at found
        subst found
        rw [if_pos rfl, if_pos rfl, exact_first.remaining_eq]
        exact Int.add_assoc _ _ _
      · rw [if_neg here, if_neg (Ne.symm here)]
        omega

/-- What the children of a parent hold changes by what the node holds of the parent. -/
theorem childrenShare (rebound : Rebound before after id old new remainder) (parent : NodeId) :
    after.childrenShare parent + old.shareUnder parent =
      before.childrenShare parent + new.shareUnder parent := by
  have steady : ∀ (node : Node) (remaining : Nat),
      Node.shareUnder parent { node with remaining } = node.shareUnder parent := by
    intro node remaining
    rfl
  have roots := rebound.totalOn .root _ steady
  have clusters := rebound.totalOn .cluster _ steady
  have leaves := rebound.totalOn .leaf _ steady
  rw [childrenShare_eq, childrenShare_eq]
  cases level : old.kind <;> simp [level] at roots clusters leaves <;> omega

/-- A census follows a rebound store when it counts the node's agreement as before or anew. -/
theorem counts (rebound : Rebound before after id old new remainder) {census next : Census}
    (counted : Tree.Counts census before)
    (nodes_eq : next.nodes = census.nodes)
    (slas_eq : ∀ level, next.slas.get level +
        (if level = old.kind then (if old.configured then 1 else 0) else 0) =
      census.slas.get level +
        (if level = old.kind then (if new.configured then 1 else 0) else 0)) :
    Tree.Counts next after := by
  intro level
  have lengths := rebound.totalOn level (fun _ => 1) fun _ _ => rfl
  have bound := rebound.totalOn level (fun node => if node.configured then 1 else 0)
    fun _ _ => rfl
  have was := counted level
  have slas := slas_eq level
  rw [length_nodes_eq_totalOn, countP_nodes_eq_totalOn] at was ⊢
  rw [nodes_eq]
  constructor <;> omega

end Rebound

end NodeStore

namespace Tree

variable {tree : Tree}

/-- A node holds nothing of a budget that is not in force. -/
theorem shareUnder_of_vacant_parent {node : Node} {parent : NodeId} {parentNode : Node}
    (above : node.configured = true → tree.ParentInPlace node)
    (found : tree.nodes.find? parent = some parentNode)
    (vacant : parentNode.configured = false) : node.shareUnder parent = 0 := by
  by_cases child : node.configured = true ∧ node.parent = some parent
  · have place := above child.1
    simp only [ParentInPlace] at place
    split at place
    · rw [child.2] at place
      contradiction
    · rcases place with ⟨id, there, under, located, bound, -⟩
      rw [child.2, Option.some.injEq] at under
      subst under
      rw [found, Option.some.injEq] at located
      subst located
      rw [vacant] at bound
      contradiction
  · simp [Node.shareUnder, child]

/-- What a node's new content and the new remainders have to satisfy to keep a tree well-formed. -/
structure Rebindable (tree : Tree) (id : NodeId) (old new : Node)
    (remainder : NodeId → Node → Nat) : Prop where
  id_eq : new.id = old.id
  kind_eq : new.kind = old.kind
  service_eq : new.service = old.service
  vacant : new.configured = false → new = Node.fresh new.id new.kind new.service
  bound : new.configured = true → ∃ sla, new.sla = some sla ∧ tree.Carries new sla
  parent : new.configured = true → tree.ParentInPlace new
  childless : new.configured = false → ∀ other node, tree.nodes.find? other = some node →
    node.configured = true → node.parent ≠ some id
  balanced : new.configured = true →
    new.remaining + tree.nodes.childrenShare id = new.cir
  /-- What the node gives up of a parent's budget remains there, and what it takes does not. -/
  settled : ∀ other node, other ≠ id → tree.nodes.find? other = some node →
    remainder other node + new.shareUnder other = node.remaining + old.shareUnder other
  apart : ∀ other node sla otherSla, other ≠ id → tree.nodes.find? other = some node →
    new.sla = some sla → node.sla = some otherSla → tree.RingsApart sla otherSla

section Rebind

variable {nodes : NodeStore} {census : Census} {id : NodeId} {old new : Node}
  {remainder : NodeId → Node → Nat}

/-- Whatever stood in place as a parent still does. -/
theorem ParentInPlace.rebind {child : Node} (above : tree.ParentInPlace child)
    (rebound : tree.nodes.Rebound nodes id old new remainder)
    (fits : tree.Rebindable id old new remainder)
    (attached : child.parent = some id → new.configured = true) :
    ({ tree with nodes, census } : Tree).ParentInPlace child := by
  simp only [ParentInPlace] at above ⊢
  split at above
  · exact above
  · rcases above with ⟨parent, parentNode, under, located, bound, kind, service⟩
    by_cases same : parent = id
    · subst same
      rw [rebound.was, Option.some.injEq] at located
      subst located
      exact ⟨parent, new, under, rebound.is, attached under, fits.kind_eq.trans kind,
        fits.service_eq.trans service⟩
    · exact ⟨parent, _, under, rebound.find?_other same located, bound, kind, service⟩

/-- A vacant node holds no budget, so its remainder is what it was. -/
theorem WellFormed.remainder_of_vacant (sound : tree.WellFormed)
    (rebound : tree.nodes.Rebound nodes id old new remainder)
    (fits : tree.Rebindable id old new remainder) {other : NodeId} {node : Node}
    (different : other ≠ id) (found : tree.nodes.find? other = some node)
    (free : node.configured = false) : remainder other node = node.remaining := by
  have settled := fits.settled other node different found
  rw [shareUnder_of_vacant_parent fits.parent found free,
    shareUnder_of_vacant_parent (sound.parents id old rebound.was) found free] at settled
  omega

/-- Neither before nor after does the node hold anything of its own budget. -/
theorem WellFormed.childrenShare_rebound (sound : tree.WellFormed)
    (rebound : tree.nodes.Rebound nodes id old new remainder)
    (fits : tree.Rebindable id old new remainder) (taken : new.configured = true) :
    nodes.childrenShare id = tree.nodes.childrenShare id := by
  have share := rebound.childrenShare id
  have new_elsewhere : new.shareUnder id = 0 :=
    Node.shareUnder_of_ne ((fits.parent taken).ne_self rebound.was fits.kind_eq.symm)
  have old_elsewhere : old.shareUnder id = 0 := by
    by_cases old_taken : old.configured = true
    · exact Node.shareUnder_of_ne
        ((sound.parents id old rebound.was old_taken).ne_self rebound.was rfl)
    · exact Node.shareUnder_of_vacant (by simpa using old_taken) id
  omega

theorem WellFormed.rebind (sound : tree.WellFormed)
    (rebound : tree.nodes.Rebound nodes id old new remainder)
    (fits : tree.Rebindable id old new remainder) (counted : Counts census nodes) :
    ({ tree with nodes, census } : Tree).WellFormed where
  profile_valid := sound.profile_valid
  config_valid := sound.config_valid
  enabled := sound.enabled
  sized kind := (rebound.sized kind).trans (sound.sized kind)
  placed other node found := by
    rcases rebound.eq_or_before found with ⟨rfl, rfl⟩ | ⟨different, before, was, rfl⟩
    · rw [fits.id_eq, fits.kind_eq]
      exact sound.placed other old rebound.was
    · exact sound.placed other before was
  vacant other node found free := by
    rcases rebound.eq_or_before found with ⟨rfl, rfl⟩ | ⟨different, before, was, rfl⟩
    · exact fits.vacant free
    · rw [sound.remainder_of_vacant rebound fits different was free]
      exact sound.vacant other before was free
  bound other node found taken := by
    rcases rebound.eq_or_before found with ⟨rfl, rfl⟩ | ⟨different, before, was, rfl⟩
    · rcases fits.bound taken with ⟨sla, bound, carries⟩
      exact ⟨sla, bound, { carries with }⟩
    · rcases sound.bound other before was taken with ⟨sla, bound, carries⟩
      exact ⟨sla, bound, { carries with }⟩
  parents other node found taken := by
    rcases rebound.eq_or_before found with ⟨rfl, rfl⟩ | ⟨different, before, was, rfl⟩
    · exact (fits.parent taken).rebind rebound fits fun _ => taken
    · have above : tree.ParentInPlace { before with remaining := remainder other before } :=
        sound.parents other before was taken
      apply above.rebind rebound fits
      intro under
      by_contra free
      exact fits.childless (by simpa using free) other before was taken under
  balanced other node found taken := by
    rcases rebound.eq_or_before found with ⟨rfl, rfl⟩ | ⟨different, before, was, rfl⟩
    · show node.remaining + nodes.childrenShare other = node.cir
      rw [sound.childrenShare_rebound rebound fits taken]
      exact fits.balanced taken
    · have share := rebound.childrenShare other
      have balanced := sound.balanced other before was taken
      have settled := fits.settled other before different was
      show remainder other before + nodes.childrenShare other = before.cir
      omega
  apart place other node otherNode sla otherSla different found other_found carries
      other_carries := by
    rcases rebound.eq_or_before found with ⟨rfl, rfl⟩ | ⟨elsewhere, before, was, rfl⟩
    · rcases rebound.eq_or_before other_found with ⟨rfl, -⟩ | ⟨other_ne, before, was, rfl⟩
      · contradiction
      · exact fits.apart other before sla otherSla other_ne was carries other_carries
    · rcases rebound.eq_or_before other_found with ⟨rfl, rfl⟩ | ⟨_, otherBefore, other_was, rfl⟩
      · exact (fits.apart place before otherSla sla elsewhere was other_carries carries).symm
      · exact sound.apart place other before otherBefore sla otherSla different was other_was
          carries other_carries
  rooted service root known := by
    rcases sound.rooted service root known with ⟨node, found, kind, same_service⟩
    by_cases same : root = id
    · subst same
      rw [rebound.was, Option.some.injEq] at found
      subst found
      exact ⟨new, rebound.is, fits.kind_eq.trans kind, fits.service_eq.trans same_service⟩
    · exact ⟨_, rebound.find?_other same found, kind, same_service⟩
  registered other node found kind := by
    rcases rebound.eq_or_before found with ⟨rfl, rfl⟩ | ⟨different, before, was, rfl⟩
    · rw [fits.service_eq]
      exact sound.registered other old rebound.was (fits.kind_eq.symm.trans kind)
    · exact sound.registered other before was kind
  served other node found := by
    rcases rebound.eq_or_before found with ⟨rfl, rfl⟩ | ⟨different, before, was, rfl⟩
    · rw [fits.service_eq]
      exact sound.served other old rebound.was
    · exact sound.served other before was
  counted := counted

end Rebind

end Tree

end RateTree
