import RateTree.Proofs.Allocation

/-!
# Histories of a node store

As long as its nodes carry no agreements, a store is only ever asked to make nodes and to remove them.
What it has granted is its history, and the history alone tells which identifiers are live and which
nodes they name. At all times the store holds exactly the live nodes. It makes the next node of a level
in the lowest slot that is not live, or refuses because every slot is, and it removes a live node and
nothing besides.
-/

namespace RateTree

namespace NodeStore

variable {store after : NodeStore} {id : NodeId} {kind : NodeKind} {service : Service}

/-! ## Requests one by one -/

/-- Nothing but the content of one slot was changed. -/
structure Replaced (before after : NodeStore) (id : NodeId) (content : Option Node) : Prop where
  found : ∀ other, after.find? other = if other = id then content else before.find? other
  tables : ∀ level, id.kind? ≠ some level → after.slots.get level = before.slots.get level

theorem Refilled.replaced {content : Option Node} (refilled : store.Refilled after id kind content) :
    store.Replaced after id content where
  found := refilled.found
  tables level elsewhere := by
    have different : level ≠ kind := by
      rintro rfl
      exact elsewhere refilled.known
    rw [refilled.after_eq]
    simp [setSlot, PerKind.get_set, different]

/-- How making a node can end where some nodes are live: it goes into the lowest slot that is not, or
there is none. -/
inductive Makes (live : NodeId → Option Node) (before : NodeStore) (kind : NodeKind)
    (service : Service) : Except Error (NodeId × NodeStore) → Prop where
  | lowest {index : Nat} {after : NodeStore} (inside : index < kind.capacity)
      (free : live (.ofSlot kind index) = none)
      (taken : ∀ lower < index, (live (.ofSlot kind lower)).isSome = true)
      (replaced : before.Replaced after (.ofSlot kind index)
        (some (Node.fresh (.ofSlot kind index) kind service))) :
      Makes live before kind service (.ok (.ofSlot kind index, after))
  | exhausted (full : ∀ index < kind.capacity, (live (.ofSlot kind index)).isSome = true) :
      Makes live before kind service (.error (.slotsExhausted kind))

/-- How removing a node can end where some nodes, none of them with an agreement, are live. -/
inductive Removes (live : NodeId → Option Node) (before : NodeStore) (id : NodeId) :
    Except Error (Node × NodeStore) → Prop where
  | freed {node : Node} {after : NodeStore} (held : live id = some node)
      (replaced : before.Replaced after id none) : Removes live before id (.ok (node, after))
  | absent (nothing : live id = none) : Removes live before id (.error (.notFound (.node id)))

theorem allocate_makes (sized : (store.slots.get kind).length = kind.capacity) :
    Makes store.find? store kind service (store.allocate kind service) := by
  have ended := allocate_allots service sized
  generalize store.allocate kind service = result at ended ⊢
  cases ended with
  | lowest inside free taken refilled => exact .lowest inside free taken refilled.replaced
  | exhausted full => exact .exhausted full

theorem remove_removes (idle : ∀ node, store.find? id = some node → node.configured = false) :
    Removes store.find? store id (store.remove id) := by
  cases removed : store.remove id with
  | ok result =>
      rcases refilled_of_remove removed with ⟨kind, found, refilled⟩
      exact .freed found refilled.replaced
  | error cause =>
      simp only [remove] at removed
      split at removed
      · next node _ found =>
        simp [idle node found] at removed
      · next missing =>
        cases removed
        refine .absent ?_
        cases found : store.find? id with
        | none => rfl
        | some node =>
            rcases kind?_isSome_of_find? found with ⟨kind, known, -⟩
            exact absurd found (missing kind node known)

/-! ## Histories -/

/-- What can be asked of a store. -/
inductive Request where
  | allocate (kind : NodeKind) (service : Service)
  | remove (id : NodeId)
deriving DecidableEq

/-- What a store has granted. -/
inductive Event where
  | allocated (id : NodeId) (kind : NodeKind) (service : Service)
  | removed (id : NodeId)
deriving DecidableEq

/-- The node that an identifier names: the one last made under it, unless it was removed since. -/
def live? : List Event → NodeId → Option Node
  | [], _ => none
  | .allocated id kind service :: earlier, other =>
    if other = id then some (Node.fresh id kind service) else live? earlier other
  | .removed id :: earlier, other => if other = id then none else live? earlier other

/-- A store and what it has granted, newest first. -/
structure History where
  store : NodeStore
  events : List Event

namespace History

/-- Puts a request to the store; one that is refused leaves everything as it is. -/
def ask (history : History) : Request → History
  | .allocate kind service =>
    match history.store.allocate kind service with
    | .ok (id, after) => ⟨after, .allocated id kind service :: history.events⟩
    | .error _ => history
  | .remove id =>
    match history.store.remove id with
    | .ok (_, after) => ⟨after, .removed id :: history.events⟩
    | .error _ => history

/-- The history of a store that is empty at first. -/
def ofRequests (requests : List Request) : History :=
  requests.foldl ask ⟨.empty, []⟩

/-- The node that an identifier names. -/
def live (history : History) (id : NodeId) : Option Node := live? history.events id

/-- What a history says about its store. -/
structure Sound (history : History) : Prop where
  sized : ∀ kind, (history.store.slots.get kind).length = kind.capacity
  found : ∀ id, history.store.find? id = history.live id
  fresh : ∀ id node, history.live id = some node →
    id.InRange node.kind ∧ node = Node.fresh id node.kind node.service

variable {history : History}

theorem Sound.empty : Sound ⟨.empty, []⟩ where
  sized := by rintro (_ | _ | _) <;> rfl
  found := find?_empty
  fresh id node held := by simp [live, live?] at held

theorem Sound.idle (sound : history.Sound) (node : Node)
    (found : history.store.find? id = some node) : node.configured = false := by
  rw [sound.found] at found
  rw [(sound.fresh id node found).2]
  rfl

theorem Sound.makes (sound : history.Sound) (kind : NodeKind) (service : Service) :
    Makes history.live history.store kind service (history.store.allocate kind service) := by
  rw [← funext sound.found]
  exact allocate_makes (sound.sized kind)

theorem Sound.removes (sound : history.Sound) (id : NodeId) :
    Removes history.live history.store id (history.store.remove id) := by
  rw [← funext sound.found]
  exact remove_removes sound.idle

theorem Sound.allocated {index : Nat} (sound : history.Sound) (inside : index < kind.capacity)
    (refilled : history.store.Refilled after (.ofSlot kind index) kind
      (some (Node.fresh (.ofSlot kind index) kind service))) :
    Sound ⟨after, .allocated (.ofSlot kind index) kind service :: history.events⟩ where
  sized level := (refilled.sized level).trans (sound.sized level)
  found id := by simp only [live, live?, refilled.found, sound.found]
  fresh id node held := by
    simp only [live, live?] at held
    split at held
    · next same =>
      cases held
      subst same
      refine ⟨?_, rfl⟩
      have small := inside.trans_le kind.capacity_le
      rw [NodeId.inRange_iff]
      exact ⟨NodeId.kind?_ofSlot kind index, by rwa [NodeId.index_ofSlot kind small]⟩
    · exact sound.fresh id node held

theorem Sound.removed (sound : history.Sound) (refilled : history.store.Refilled after id kind none) :
    Sound ⟨after, .removed id :: history.events⟩ where
  sized level := (refilled.sized level).trans (sound.sized level)
  found other := by simp only [live, live?, refilled.found, sound.found]
  fresh other node held := by
    simp only [live, live?] at held
    split at held
    · contradiction
    · exact sound.fresh other node held

theorem Sound.ask (sound : history.Sound) (request : Request) : (history.ask request).Sound := by
  cases request with
  | allocate kind service =>
      have ended := allocate_allots service (sound.sized kind)
      simp only [History.ask]
      generalize history.store.allocate kind service = result at ended ⊢
      cases ended with
      | lowest inside _ _ refilled => exact sound.allocated inside refilled
      | exhausted => exact sound
  | remove id =>
      cases removed : history.store.remove id with
      | error cause => simpa [History.ask, removed] using sound
      | ok result =>
          rcases refilled_of_remove removed with ⟨kind, found, refilled⟩
          simp only [History.ask, removed]
          exact sound.removed refilled

theorem sound_ofRequests (requests : List Request) : (ofRequests requests).Sound := by
  apply List.foldlRecOn requests History.ask .empty
  intro history sound request _
  exact sound.ask request

/-- A store that makes and removes nodes holds exactly the live ones, under any number that an
identifier may have: each has its own identifier, which names a slot of its level. The next node of a
level goes into the lowest slot that is not live, none being made exactly if all are, and a node is
removed exactly if it is live; neither touches another level or another node. -/
theorem slots_are_handed_out_lowest_first (requests : List Request) :
    (∀ id, (ofRequests requests).store.find? id = (ofRequests requests).live id) ∧
    (∀ id node, (ofRequests requests).live id = some node →
      node.id = id ∧ id.InRange node.kind) ∧
    (∀ kind service, Makes (ofRequests requests).live (ofRequests requests).store kind service
      ((ofRequests requests).store.allocate kind service)) ∧
    ∀ id, Removes (ofRequests requests).live (ofRequests requests).store id
      ((ofRequests requests).store.remove id) := by
  have sound := sound_ofRequests requests
  refine ⟨sound.found, ?_, sound.makes, sound.removes⟩
  intro id node held
  rcases sound.fresh id node held with ⟨inside, fresh⟩
  exact ⟨by rw [fresh]; rfl, inside⟩

end History

end NodeStore

end RateTree
