import RateTree.Action
import RateTree.Census
import RateTree.NodeStore

/-!
# Roots

Every enabled service has one root, made once and for all when the limiter comes up. The roots are
walked in the order of their identifiers, which is the order in which the services are listed.
-/

namespace RateTree

/-- The root of each service that has one. -/
structure Roots where
  ids : PerService (Option NodeId)
deriving DecidableEq

namespace Roots

/-- No roots. -/
def none : Roots := ⟨.uniform Option.none⟩

/-- The root of a service. -/
def id? (roots : Roots) (service : Service) : Option NodeId := roots.ids.get service

/-- Makes a root for each service of a list, in order, counting the new nodes; a service that has
one already is refused. -/
def extend (roots : Roots) : List Service → Action (NodeStore × Census) Roots
  | [] => pure roots
  | service :: rest => do
    if (roots.id? service).isSome then
      Action.refuse (.invalidArgument (.duplicateRoot service))
    let (store, census) ← Action.get
    let (id, store) ← (store.allocate .root service : Except Error _)
    Action.modify fun _ => (store, census.addNode .root)
    extend ⟨roots.ids.set service (some id)⟩ rest

/-- Makes a root for each service of a list, none having one before. -/
def build (services : List Service) : Action (NodeStore × Census) Roots :=
  none.extend services

/-- Puts a root before the first one with an identifier that is not below its own. -/
def insertById (entry : Service × NodeId) : List (Service × NodeId) → List (Service × NodeId)
  | [] => [entry]
  | other :: rest =>
    if entry.2.raw ≤ other.2.raw then entry :: other :: rest else other :: insertById entry rest

/-- The services that have a root, with it, in the order of the roots' identifiers. -/
def toList (roots : Roots) : List (Service × NodeId) :=
  (Service.all.filterMap fun service => (roots.id? service).map fun id => (service, id)).foldr
    insertById []

theorem mem_insertById {entry other : Service × NodeId} {entries : List (Service × NodeId)} :
    other ∈ insertById entry entries ↔ other = entry ∨ other ∈ entries := by
  induction entries with
  | nil => simp [insertById]
  | cons first rest ih =>
      simp only [insertById]
      split
      · simp
      · simp only [List.mem_cons, ih]
        exact or_left_comm

/-- The list has the root of every service that has one. -/
theorem mem_toList {roots : Roots} {service : Service} {id : NodeId} :
    (service, id) ∈ roots.toList ↔ roots.id? service = some id := by
  have sorted (entries : List (Service × NodeId)) :
      (service, id) ∈ entries.foldr insertById [] ↔ (service, id) ∈ entries := by
    induction entries with
    | nil => rfl
    | cons first rest ih => rw [List.foldr_cons, mem_insertById, ih, List.mem_cons]
  have every : service ∈ Service.all := by cases service <;> decide
  rw [toList, sorted, List.mem_filterMap]
  constructor
  · rintro ⟨other, -, found⟩
    rcases Option.map_eq_some_iff.1 found with ⟨root, is_root, same⟩
    cases same
    exact is_root
  · intro found
    exact ⟨service, every, by rw [found]; rfl⟩

/-- How many services have a root. -/
def size (roots : Roots) : Nat :=
  Service.all.countP fun service => (roots.id? service).isSome

/-- The node that is the root of a service. -/
def node? (roots : Roots) (store : NodeStore) (service : Service) : Option Node :=
  match roots.id? service with
  | some id => store.find? id
  | Option.none => Option.none

end Roots

end RateTree
