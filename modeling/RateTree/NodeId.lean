import RateTree.Text.Numeral

/-!
# Node identifiers

The tree has three levels. A node identifier packs the tag of the level above an eight-bit slot
index, so the level of a node can be read off its identifier. Each level has fewer slots than the
index could name; `InRange` tells which identifiers name a slot.
-/

namespace RateTree

/-- The level of a node: roots stand for services, clusters group leaves, and a leaf carries the
rings of one function. -/
inductive NodeKind where
  | root
  | cluster
  | leaf
deriving DecidableEq

namespace NodeKind

/-- Every level, from the top. -/
def all : List NodeKind := [.root, .cluster, .leaf]

/-- The number that stands for a level in identifiers and admin requests. -/
def tag : NodeKind → Nat
  | .root => 0
  | .cluster => 1
  | .leaf => 2

/-- The kind of nodes of a tag. -/
def ofTag? : Nat → Option NodeKind
  | 0 => some .root
  | 1 => some .cluster
  | 2 => some .leaf
  | _ => none

theorem ofTag?_tag (kind : NodeKind) : ofTag? kind.tag = some kind := by
  cases kind <;> rfl

/-- How many nodes of a kind there can be. -/
def capacity : NodeKind → Nat
  | .root => 4
  | .cluster => 16
  | .leaf => 64

/-- The word for a kind of nodes. -/
def name : NodeKind → String
  | .root => "root"
  | .cluster => "cluster"
  | .leaf => "leaf"

/-- The level that a word in lower case means. -/
def ofWord? : String → Option NodeKind
  | "root" => some .root
  | "cluster" => some .cluster
  | "leaf" => some .leaf
  | _ => none

/-- The kind of the nodes above, for all but roots. -/
def parent? : NodeKind → Option NodeKind
  | .root => none
  | .cluster => some .root
  | .leaf => some .cluster

/-- The kind of the nodes below, for all but leaves. -/
def child? : NodeKind → Option NodeKind
  | .root => some .cluster
  | .cluster => some .leaf
  | .leaf => none

end NodeKind

/-- A table with one entry for each level. -/
structure PerKind (α : Type) where
  root : α
  cluster : α
  leaf : α
deriving DecidableEq

namespace PerKind

variable {α : Type}

/-- The entry for a kind of nodes. -/
def get (table : PerKind α) : NodeKind → α
  | .root => table.root
  | .cluster => table.cluster
  | .leaf => table.leaf

/-- The table with another entry for one level. -/
def set (table : PerKind α) (kind : NodeKind) (entry : α) : PerKind α :=
  match kind with
  | .root => { table with root := entry }
  | .cluster => { table with cluster := entry }
  | .leaf => { table with leaf := entry }

theorem get_set (table : PerKind α) (kind other : NodeKind) (entry : α) :
    (table.set kind entry).get other = if other = kind then entry else table.get other := by
  cases kind <;> cases other <;> rfl

end PerKind

/-- The number of slots of the level with a given tag, zero for an unknown tag. -/
def capacityOfTag (tag : Nat) : Nat :=
  match NodeKind.ofTag? tag with
  | some kind => kind.capacity
  | none => 0

/-- A node identifier: a 32-bit number with a level tag above eight bits of slot index. -/
structure NodeId where
  raw : Nat
deriving DecidableEq

namespace NodeId

/-- The identifier with a tag and the low eight bits of an index, as a 32-bit word. -/
def pack (tag index : Nat) : NodeId :=
  ⟨tag * 256 % 0x100000000 + index % 256⟩

/-- The identifier of the node in a slot. -/
def ofSlot (kind : NodeKind) (index : Nat) : NodeId :=
  pack kind.tag index

/-- The identifiers of the slots of a level, in order. -/
def slotsOf (kind : NodeKind) : List NodeId :=
  (List.range kind.capacity).map fun index => ofSlot kind index

/-- The tag in an identifier, which may be that of no kind. -/
def tag (id : NodeId) : Nat := id.raw / 256

/-- The slot in an identifier. -/
def index (id : NodeId) : Nat := id.raw % 256

/-- The level of the node, if the tag is that of a level. -/
def kind? (id : NodeId) : Option NodeKind := NodeKind.ofTag? id.tag

/-- Whether the identifier names a slot of the level. -/
def InRange (id : NodeId) (kind : NodeKind) : Prop :=
  kind.tag * 256 ≤ id.raw ∧ id.raw < kind.tag * 256 + kind.capacity

instance (id : NodeId) (kind : NodeKind) : Decidable (id.InRange kind) :=
  inferInstanceAs (Decidable (_ ∧ _))

/-- The identifier in hexadecimal, at least three digits. -/
def display (id : NodeId) : String := Text.hexNumeral 3 id.raw

theorem index_lt (id : NodeId) : id.index < 256 := Nat.mod_lt _ (by decide)

theorem tag_ofSlot (kind : NodeKind) (index : Nat) : (ofSlot kind index).tag = kind.tag := by
  have small : kind.tag < 3 := by cases kind <;> decide
  simp only [ofSlot, pack, tag]
  omega

theorem kind?_ofSlot (kind : NodeKind) (index : Nat) : (ofSlot kind index).kind? = some kind := by
  rw [kind?, tag_ofSlot, NodeKind.ofTag?_tag]

theorem index_ofSlot (kind : NodeKind) {index : Nat} (fits : index < 256) :
    (ofSlot kind index).index = index := by
  have small : kind.tag < 3 := by cases kind <;> decide
  simp only [ofSlot, pack, NodeId.index]
  omega

end NodeId

end RateTree
