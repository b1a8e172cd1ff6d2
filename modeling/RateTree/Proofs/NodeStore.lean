import Mathlib.Algebra.Order.BigOperators.Group.List
import Mathlib.Tactic.Ring
import RateTree.NodeStore

/-!
# Node stores as maps

What the operations of a node store do to its view `find?`, and to sums over its nodes. An identifier
is determined by its level and its index, so a change made to one slot is a change made to one
identifier. A sum over the nodes of a level changes by what the node in the changed slot contributes.
-/

namespace RateTree

theorem NodeKind.capacity_le (kind : NodeKind) : kind.capacity ≤ 256 := by
  cases kind <;> decide

namespace NodeId

theorem tag_eq_of_kind? {id : NodeId} {kind : NodeKind} (known : id.kind? = some kind) :
    id.tag = kind.tag := by
  simp only [kind?, NodeKind.ofTag?] at known
  split at known <;> simp_all [NodeKind.tag]
  all_goals
    subst known
    rfl

theorem eq_of_kind?_of_index {left right : NodeId} {kind : NodeKind}
    (left_known : left.kind? = some kind) (right_known : right.kind? = some kind)
    (same : left.index = right.index) : left = right := by
  have left_tag := tag_eq_of_kind? left_known
  have right_tag := tag_eq_of_kind? right_known
  cases left with
  | mk left_raw =>
      cases right with
      | mk right_raw =>
          simp only [tag, index, mk.injEq] at *
          omega

theorem inRange_iff {id : NodeId} {kind : NodeKind} :
    id.InRange kind ↔ id.kind? = some kind ∧ id.index < kind.capacity := by
  have small := kind.capacity_le
  constructor
  · intro inside
    have tag_eq : id.tag = kind.tag := by
      simp only [InRange] at inside
      simp only [tag]
      omega
    refine ⟨by rw [kind?, tag_eq, NodeKind.ofTag?_tag], ?_⟩
    simp only [InRange] at inside
    simp only [index]
    omega
  · rintro ⟨known, below⟩
    have tag_eq := tag_eq_of_kind? known
    simp only [tag, index] at tag_eq below
    simp only [InRange]
    omega

theorem ofSlot_index {id : NodeId} {kind : NodeKind} (known : id.kind? = some kind) :
    ofSlot kind id.index = id :=
  eq_of_kind?_of_index (kind?_ofSlot kind id.index) known (index_ofSlot kind id.index_lt)

end NodeId

namespace NodeStore

variable {store : NodeStore}

/-! ## Slots -/

theorem slot_setSlot_self {kind : NodeKind} {index : Nat} (content : Option Node)
    (fits : index < (store.slots.get kind).length) :
    (store.setSlot kind index content).slot kind index = content := by
  simp [slot, setSlot, PerKind.get_set, fits]

theorem slot_setSlot_of_ne {kind other : NodeKind} {index place : Nat} (content : Option Node)
    (elsewhere : ¬(other = kind ∧ place = index)) :
    (store.setSlot kind index content).slot other place = store.slot other place := by
  simp only [slot, setSlot, PerKind.get_set]
  by_cases same : other = kind
  · have apart : index ≠ place := fun equal => elsewhere ⟨same, equal.symm⟩
    simp [same, List.getElem?_set_ne apart]
  · simp [same]

theorem length_setSlot (kind other : NodeKind) (index : Nat) (content : Option Node) :
    ((store.setSlot kind index content).slots.get other).length =
      (store.slots.get other).length := by
  by_cases same : other = kind
  · simp [setSlot, PerKind.get_set, same]
  · simp [setSlot, PerKind.get_set, same]

theorem lt_length_of_slot {kind : NodeKind} {index : Nat} {node : Node}
    (held : store.slot kind index = some node) : index < (store.slots.get kind).length := by
  by_cases fits : index < (store.slots.get kind).length
  · exact fits
  · simp [slot, List.getElem?_eq_none (Nat.le_of_not_lt fits)] at held

theorem find?_eq_slot {id : NodeId} {kind : NodeKind} (known : id.kind? = some kind) :
    store.find? id = store.slot kind id.index := by
  simp [find?, known]

theorem kind?_isSome_of_find? {id : NodeId} {node : Node} (found : store.find? id = some node) :
    ∃ kind, id.kind? = some kind ∧ store.slot kind id.index = some node := by
  simp only [find?] at found
  split at found
  · exact ⟨_, ‹_›, found⟩
  · simp at found

theorem find?_ofSlot (kind : NodeKind) {index : Nat} (small : index < 256) :
    store.find? (NodeId.ofSlot kind index) = store.slot kind index := by
  rw [find?_eq_slot (NodeId.kind?_ofSlot kind index), NodeId.index_ofSlot kind small]

theorem find?_empty (id : NodeId) : empty.find? id = none := by
  cases known : id.kind? with
  | none => simp only [find?, known]
  | some kind =>
      rw [find?_eq_slot known, slot, Option.join_eq_none_iff]
      cases kind <;>
        simp only [empty, PerKind.get, List.getElem?_replicate] <;> split <;> simp

theorem find?_setSlot {id : NodeId} {kind : NodeKind} (content : Option Node)
    (known : id.kind? = some kind) (fits : id.index < (store.slots.get kind).length)
    (other : NodeId) :
    (store.setSlot kind id.index content).find? other =
      if other = id then content else store.find? other := by
  split
  · next same =>
    rw [same, find?_eq_slot known, slot_setSlot_self content fits]
  · next different =>
    cases other_known : other.kind? with
    | none => simp [find?, other_known]
    | some other_kind =>
        rw [find?_eq_slot other_known, find?_eq_slot other_known]
        apply slot_setSlot_of_ne
        rintro ⟨rfl, same_index⟩
        exact different (NodeId.eq_of_kind?_of_index other_known known same_index)

theorem find?_modify (store : NodeStore) (id other : NodeId) (change : Node → Node) :
    (store.modify id change).find? other =
      if other = id then (store.find? id).map change else store.find? other := by
  cases found : store.find? id with
  | none =>
      have unchanged : store.modify id change = store := by
        cases known : id.kind? <;> simp only [modify, known, found]
      rw [unchanged]
      split
      · next same => rw [same, found, Option.map_none]
      · rfl
  | some node =>
      rcases kind?_isSome_of_find? found with ⟨kind, known, held⟩
      have changed : store.modify id change = store.setSlot kind id.index (some (change node)) := by
        simp only [modify, known, found]
      rw [changed, find?_setSlot _ known (lt_length_of_slot held)]
      rfl

theorem length_modify (store : NodeStore) (id : NodeId) (change : Node → Node) (kind : NodeKind) :
    ((store.modify id change).slots.get kind).length = (store.slots.get kind).length := by
  simp only [modify]
  split
  · exact length_setSlot _ _ _ _
  · rfl

/-! ## The nodes of a level -/

theorem mem_nodes {kind : NodeKind} {node : Node} :
    node ∈ store.nodes kind ↔ ∃ index, store.slot kind index = some node := by
  simp only [nodes, List.mem_filterMap, id_eq, exists_eq_right, slot]
  constructor
  · intro mem
    rcases List.getElem?_of_mem mem with ⟨index, held⟩
    exact ⟨index, by simp [held]⟩
  · rintro ⟨index, held⟩
    exact List.mem_of_getElem? (Option.join_eq_some_iff.1 held)

/-- What a node that may be absent contributes to a sum. -/
def contribution (weight : Node → Nat) : Option Node → Nat
  | some node => weight node
  | none => 0

/-- The sum of a weight over the nodes of a level. -/
def totalOn (store : NodeStore) (kind : NodeKind) (weight : Node → Nat) : Nat :=
  ((store.nodes kind).map weight).sum

theorem sum_filterMap_set (weight : Node → Nat) (slots : List (Option Node)) (index : Nat)
    (content : Option Node) (fits : index < slots.length) :
    (((slots.set index content).filterMap id).map weight).sum +
        contribution weight slots[index]?.join =
      ((slots.filterMap id).map weight).sum + contribution weight content := by
  induction slots generalizing index with
  | nil => simp at fits
  | cons head tail ih =>
      cases index with
      | zero => cases head <;> cases content <;> simp [contribution] <;> ring
      | succ index =>
          have rest := ih index (by simpa using fits)
          cases head <;> simp at rest ⊢ <;> omega

theorem totalOn_setSlot {kind : NodeKind} {index : Nat} (content : Option Node)
    (fits : index < (store.slots.get kind).length) (other : NodeKind) (weight : Node → Nat) :
    (store.setSlot kind index content).totalOn other weight +
        (if other = kind then contribution weight (store.slot kind index) else 0) =
      store.totalOn other weight + (if other = kind then contribution weight content else 0) := by
  by_cases same : other = kind
  · subst same
    simpa [totalOn, nodes, setSlot, PerKind.get_set, slot] using
      sum_filterMap_set weight (store.slots.get other) index content fits
  · simp [totalOn, nodes, setSlot, PerKind.get_set, same]

theorem totalOn_modify {id : NodeId} {kind : NodeKind} {node : Node} (change : Node → Node)
    (known : id.kind? = some kind) (found : store.find? id = some node) (other : NodeKind)
    (weight : Node → Nat) :
    (store.modify id change).totalOn other weight + (if other = kind then weight node else 0) =
      store.totalOn other weight + (if other = kind then weight (change node) else 0) := by
  have held : store.slot kind id.index = some node := by rw [← find?_eq_slot known, found]
  have changed : store.modify id change = store.setSlot kind id.index (some (change node)) := by
    simp only [modify, known, found]
  have moved := totalOn_setSlot (some (change node)) (lt_length_of_slot held) other weight
  rw [held] at moved
  rw [changed]
  exact moved

theorem length_nodes_eq_totalOn (kind : NodeKind) :
    (store.nodes kind).length = store.totalOn kind fun _ => 1 := by
  simp [totalOn]

theorem countP_nodes_eq_totalOn (kind : NodeKind) (test : Node → Bool) :
    (store.nodes kind).countP test = store.totalOn kind fun node => if test node then 1 else 0 := by
  simp only [totalOn]
  induction store.nodes kind with
  | nil => rfl
  | cons node rest ih =>
      rw [List.countP_cons, List.map_cons, List.sum_cons, ih]
      ring

theorem le_totalOn {kind : NodeKind} {node : Node} (mem : node ∈ store.nodes kind)
    (weight : Node → Nat) : weight node ≤ store.totalOn kind weight :=
  List.single_le_sum (by simp) _ (List.mem_map_of_mem mem)

theorem totalOn_eq_zero {kind : NodeKind} {weight : Node → Nat}
    (weightless : ∀ node ∈ store.nodes kind, weight node = 0) : store.totalOn kind weight = 0 := by
  apply List.sum_eq_zero
  intro value mem
  rcases List.mem_map.1 mem with ⟨node, node_mem, rfl⟩
  exact weightless node node_mem

end NodeStore

end RateTree
