import RateTree.Proofs.Admission
import RateTree.Proofs.ScriptRuns

/-!
# References to nodes

A line of a script refers to a node by its level and the index of a slot, any number of 32 bits. An
identifier has room for eight bits of the index, so that the range of a level is checked on what is left
of it: an index whose low eight bits are beyond the level is refused, with nothing done, and every other
index means the slot that its low eight bits name.
-/

namespace RateTree

open ScriptCommand (ofWords argument number service node node? nodeReference)
open ScriptSession (perform)

/-! ## Refusals of plans -/

/-- Whether a computation is refused with an error. -/
def Refused {α : Type} (outcome : Outcome α) : Prop :=
  ∃ cause, outcome = .error (.error cause)

theorem Refused.check_bind {α β : Type} {checked : Except Error α} {next : α → Outcome β}
    (later : ∀ value, checked = .ok value → Refused (next value)) :
    Refused (liftM checked >>= next) := by
  cases checked with
  | error cause => exact ⟨cause, rfl⟩
  | ok value => exact later value rfl

theorem NodeId.inRange_ofSlot_iff {kind level : NodeKind} {index : Nat} :
    (ofSlot kind index).InRange level ↔ level = kind ∧ index % 256 < kind.capacity := by
  have low : (ofSlot kind index).index = index % 256 := by
    have small : kind.tag < 3 := by cases kind <;> decide
    simp only [ofSlot, pack, NodeId.index]
    omega
  rw [inRange_iff, kind?_ofSlot, low, Option.some.injEq, eq_comm]
  constructor
  · rintro ⟨rfl, below⟩
    exact ⟨rfl, below⟩
  · rintro ⟨rfl, below⟩
    exact ⟨rfl, below⟩

namespace Tree

variable {tree : Tree} {request : Sla} {id cluster : NodeId}

theorem planCreate_refused_of_node (outside : ¬request.node.InRange request.kind) :
    Refused (tree.planCreate request) :=
  .check_bind fun _ inside => absurd (NodeId.checkRange_eq_ok.1 inside) outside

theorem planCreate_refused_of_parent (level : request.kind = .leaf)
    (named : request.parent = some cluster) (outside : ¬cluster.InRange .cluster) :
    Refused (tree.planCreate request) := by
  refine .check_bind fun _ _ => .check_bind fun root _ => .check_bind fun _ _ =>
    .check_bind fun _ _ => .check_bind fun parent resolved => ?_
  rw [resolveParent_eq_ok, level] at resolved
  rcases resolved with ⟨other, other_eq, inside, -⟩
  rw [named, Option.some.injEq] at other_eq
  exact absurd (other_eq ▸ inside) outside

theorem planUpdate_refused_of_node (outside : ∀ kind, ¬request.id.InRange kind) :
    Refused (tree.planUpdate request) :=
  .check_bind fun kind _ => .check_bind fun _ inside =>
    absurd (NodeId.checkRange_eq_ok.1 inside) (outside kind)

/-- The cluster that a leaf is under is in range, so that one out of range would be another. -/
theorem WellFormed.planUpdate_refused_of_parent (sound : tree.WellFormed)
    (level : request.id.kind? = some .leaf) (named : request.parent = some cluster)
    (outside : ¬cluster.InRange .cluster) : Refused (tree.planUpdate request) := by
  refine .check_bind fun kind known => .check_bind fun _ _ => .check_bind ?_
  rintro ⟨node, current⟩ located
  refine .check_bind fun _ _ => .check_bind fun _ _ => .check_bind fun target aimed => ?_
  rw [NodeId.checkKind_eq_ok, level, Option.some.injEq] at known
  subst known
  rw [configuredNode_eq_ok] at located
  rcases located with ⟨found, bound, -⟩
  have is_leaf := (sound.placed _ node found).2
  rw [level, Option.some.injEq] at is_leaf
  rcases sound.inRange_of_leaf found bound is_leaf.symm with ⟨above, under, inside⟩
  rw [targetParent_eq_ok, named] at aimed
  rcases aimed with ⟨-, -, stays⟩ | ⟨other, -, other_eq, -, -, there, -⟩
  · rcases stays rfl with none | same
    · contradiction
    · rw [under, Option.some.injEq] at same
      exact absurd (same ▸ inside) outside
  · rw [Option.some.injEq] at other_eq
    exact absurd (other_eq ▸ there) outside

theorem planDelete_refused (outside : ∀ kind, ¬id.InRange kind) : Refused (tree.planDelete id) :=
  .check_bind fun kind _ => .check_bind fun _ inside =>
    absurd (NodeId.checkRange_eq_ok.1 inside) (outside kind)

end Tree

/-! ## Commands -/

/-- The nodes that a command concerns: its target, and the cluster that a leaf comes under. -/
inductive ScriptCommand.Concerns : ScriptCommand → NodeId → Prop where
  | removeNode (id : NodeId) : Concerns (.removeNode id) id
  | addCluster (id : NodeId) (served : Service) (cir pir : Nat) :
      Concerns (.addCluster id served cir pir) id
  | addLeaf (id parent : NodeId) (served : Service) (owner : PciAddress) (cir pir : Nat) :
      Concerns (.addLeaf id parent served owner cir pir) id
  | leafParent (id parent : NodeId) (served : Service) (owner : PciAddress) (cir pir : Nat) :
      Concerns (.addLeaf id parent served owner cir pir) parent
  | update (id : NodeId) (cir pir : Nat) (parent : Option NodeId) :
      Concerns (.update id cir pir parent) id
  | newParent {id : NodeId} (leaf : id.kind? = some .leaf) (parent : NodeId) (cir pir : Nat) :
      Concerns (.update id cir pir (some parent)) parent
  | delete (id : NodeId) : Concerns (.delete id) id

namespace Limiter

variable {δ α π : Type} {limiter : Limiter δ}

theorem carryOut_of_refused {plan : Tree → Outcome π} (refused : Refused (plan limiter.tree))
    (apply : π → Action δ Unit) (commit : Tree → π → Tree) (result : π → α) :
    ∃ cause, carryOut plan apply commit result limiter = (.error (.error cause), limiter) := by
  rcases refused with ⟨cause, planned⟩
  exact ⟨cause, by simp only [carryOut, planned]⟩

theorem deleteNode_of_outside [RegisterAccess δ] [BlockMemory δ] [AdminTransport δ] {id : NodeId}
    (outside : ∀ kind, ¬id.InRange kind) :
    ∃ cause, deleteNode id limiter = (.error (.error cause), limiter) := by
  cases checked : limiter.tree.checkRemovable id with
  | error cause =>
      refine ⟨cause, Action.bind_eq_error.2 (.inr ⟨limiter, limiter, rfl, ?_⟩)⟩
      rw [checked]
      rfl
  | ok kind => exact absurd (Tree.checkRemovable_eq_ok.1 checked).2.2.1 (outside kind)

end Limiter

namespace ScriptCommand

variable {limiter : BenchLimiter} {command : ScriptCommand} {id : NodeId}

theorem bind_refused {α β : Type} {action : Action BenchLimiter α}
    (refused : ∃ cause, action limiter = (.error (.error cause), limiter))
    (next : α → Action BenchLimiter β) :
    ∃ cause, (action >>= next) limiter = (.error (.error cause), limiter) := by
  rcases refused with ⟨cause, ended⟩
  exact ⟨cause, Action.bind_eq_error.2 (.inl ended)⟩

/-- A command that concerns a node out of range is refused, and nothing is done. -/
theorem Concerns.refused_of_outside (concerns : command.Concerns id) (sound : limiter.tree.WellFormed)
    (outside : ∀ kind, ¬id.InRange kind) :
    ∃ cause, command.carryOut limiter = (.error (.error cause), limiter) := by
  cases concerns with
  | removeNode => exact bind_refused (Limiter.deleteNode_of_outside outside) _
  | addCluster _ served cir pir =>
      have refused : Refused (limiter.tree.planCreate (.cluster id served cir pir)) :=
        Tree.planCreate_refused_of_node (outside .cluster)
      exact bind_refused (Limiter.carryOut_of_refused refused _ _ _) _
  | addLeaf _ parent served owner cir pir =>
      have refused : Refused (limiter.tree.planCreate (.leaf id parent served owner cir pir)) :=
        Tree.planCreate_refused_of_node (outside .leaf)
      exact bind_refused (Limiter.carryOut_of_refused refused _ _ _) _
  | leafParent leaf _ served owner cir pir =>
      have refused : Refused (limiter.tree.planCreate (.leaf leaf id served owner cir pir)) :=
        Tree.planCreate_refused_of_parent rfl rfl (outside .cluster)
      exact bind_refused (Limiter.carryOut_of_refused refused _ _ _) _
  | update _ cir pir parent =>
      have refused : Refused (limiter.tree.planUpdate (.update id cir pir parent)) :=
        Tree.planUpdate_refused_of_node outside
      exact bind_refused (Limiter.carryOut_of_refused refused _ _ _) _
  | @newParent leaf level _ cir pir =>
      have refused : Refused (limiter.tree.planUpdate (.update leaf cir pir (some id))) :=
        sound.planUpdate_refused_of_parent level rfl (outside .cluster)
      exact bind_refused (Limiter.carryOut_of_refused refused _ _ _) _
  | delete =>
      exact bind_refused (Limiter.carryOut_of_refused (Tree.planDelete_refused outside) _ _ _) _

end ScriptCommand

/-! ## Lines -/

/-- Whether the word at a position of a line refers to a node that the line concerns: the target of any
command on one node, and the cluster that a leaf comes under. -/
inductive Refers (words : List String) : Nat → Prop where
  | target {name : String} (first : words[0]? = some name)
      (listed : name ∈ ["rm", "cluster", "leaf", "update", "delete"]) : Refers words 1
  | leafParent (first : words[0]? = some "leaf") : Refers words 2
  | newParent {id : NodeId} (first : words[0]? = some "update") (target : node words 1 = .ok id)
      (leaf : id.kind? = some .leaf) : Refers words 4

/-- Whether a word reads as a level and an index of 32 bits with a colon between. -/
def NamesSlot (word : String) (kind : NodeKind) (index : Nat) : Prop :=
  ∃ level slot, Text.splitFirst? ':' word.toList = some (level, slot) ∧
    NodeKind.parse (String.ofList level) = .ok kind ∧ Text.readNumeral slot = .ok index

theorem NamesSlot.nodeReference_eq {word : String} {kind : NodeKind} {index : Nat}
    (names : NamesSlot word kind index) : nodeReference word = .ok (.ofSlot kind index) := by
  rcases names with ⟨level, slot, split, parsed, read⟩
  rw [nodeReference, split]
  show ((NodeKind.parse (String.ofList level)).mapError ScriptError.refused >>= _) = _
  rw [parsed]
  show ((Text.readNumeral slot).mapError ScriptError.numeral >>= _) = _
  rw [read]
  rfl

namespace ScriptCommand

variable {words : List String} {α β : Type}

theorem liftRead_eq_ok {read : Except ScriptError α} {value : α} :
    (liftM read : Except ScriptFailure α) = .ok value ↔ read = .ok value := by
  cases read with
  | error cause =>
      change (.error (.error cause) : Except ScriptFailure α) = .ok value ↔ _
      simp
  | ok result =>
      change (.ok result : Except ScriptFailure α) = .ok value ↔ _
      simp

theorem ofWords_rm (first : words[0]? = some "rm") :
    ofWords words = (do let id ← node words 1; return .removeNode id) := by
  rw [ofWords, argument, first]
  rfl

theorem ofWords_cluster (first : words[0]? = some "cluster") :
    ofWords words = (do
      let id ← node words 1
      let served ← service words 2
      let cir ← number words 3
      let pir ← number words 4
      return .addCluster id served cir pir) := by
  rw [ofWords, argument, first]
  rfl

theorem ofWords_leaf (first : words[0]? = some "leaf") :
    ofWords words = (do
      let id ← node words 1
      let parent ← node words 2
      let served ← service words 4
      let function ← owner words 3
      let cir ← number words 5
      let pir ← number words 6
      return .addLeaf id parent served function cir pir) := by
  rw [ofWords, argument, first]
  rfl

theorem ofWords_update (first : words[0]? = some "update") :
    ofWords words = (do
      let id ← node words 1
      let cir ← number words 2
      let pir ← number words 3
      let parent ← node? words 4
      return .update id cir pir parent) := by
  rw [ofWords, argument, first]
  rfl

theorem ofWords_delete (first : words[0]? = some "delete") :
    ofWords words = (do let id ← node words 1; return .delete id) := by
  rw [ofWords, argument, first]
  rfl

theorem node_eq {position : Nat} {word : String} (present : words[position]? = some word) :
    node words position = nodeReference word := by
  rw [node, argument, present]
  rfl

theorem node?_eq {position : Nat} {word : String} (present : words[position]? = some word) :
    node? words position = (nodeReference word).map some := by
  rw [node?, present]

/-- The command that is read from a line concerns the nodes that the line refers to. -/
theorem concerns_of_refers {position : Nat} {word : String} {id : NodeId} {command : ScriptCommand}
    (refers : Refers words position) (present : words[position]? = some word)
    (reference : nodeReference word = .ok id) (read : ofWords words = .ok command) :
    command.Concerns id := by
  have known := (node_eq present).trans reference
  cases refers with
  | target first listed =>
      simp only [List.mem_cons, List.not_mem_nil, or_false] at listed
      rcases listed with rfl | rfl | rfl | rfl | rfl
      · simp only [ofWords_rm first, Outcome.bind_eq_ok, liftRead_eq_ok, known, Outcome.pure_eq_ok,
          Except.ok.injEq] at read
        rcases read with ⟨_, rfl, rfl⟩
        exact .removeNode id
      · simp only [ofWords_cluster first, Outcome.bind_eq_ok, liftRead_eq_ok, known,
          Outcome.pure_eq_ok, Except.ok.injEq] at read
        rcases read with ⟨_, rfl, served, -, cir, -, pir, -, rfl⟩
        exact .addCluster id served cir pir
      · simp only [ofWords_leaf first, Outcome.bind_eq_ok, liftRead_eq_ok, known,
          Outcome.pure_eq_ok, Except.ok.injEq] at read
        rcases read with ⟨_, rfl, parent, -, served, -, function, -, cir, -, pir, -, rfl⟩
        exact .addLeaf id parent served function cir pir
      · simp only [ofWords_update first, Outcome.bind_eq_ok, liftRead_eq_ok, known,
          Outcome.pure_eq_ok, Except.ok.injEq] at read
        rcases read with ⟨_, rfl, cir, -, pir, -, parent, -, rfl⟩
        exact .update id cir pir parent
      · simp only [ofWords_delete first, Outcome.bind_eq_ok, liftRead_eq_ok, known,
          Outcome.pure_eq_ok, Except.ok.injEq] at read
        rcases read with ⟨_, rfl, rfl⟩
        exact .delete id
  | leafParent first =>
      simp only [ofWords_leaf first, Outcome.bind_eq_ok, liftRead_eq_ok, known, Outcome.pure_eq_ok,
        Except.ok.injEq] at read
      rcases read with ⟨leaf, -, _, rfl, served, -, function, -, cir, -, pir, -, rfl⟩
      exact .leafParent leaf id served function cir pir
  | newParent first aimed level =>
      have named : node? words 4 = .ok (some id) := by
        rw [node?_eq present, reference]
        rfl
      simp only [ofWords_update first, Outcome.bind_eq_ok, liftRead_eq_ok, aimed, named,
        Outcome.pure_eq_ok, Except.ok.injEq] at read
      rcases read with ⟨_, rfl, cir, -, pir, -, _, rfl, rfl⟩
      exact .newParent level id cir pir

/-! ## Words with one reference -/

/-- Whether two lines differ in one word at most, which refers to the same node in both. -/
structure SameReading (words others : List String) (position : Nat) : Prop where
  elsewhere : ∀ place, place ≠ position → others[place]? = words[place]?
  reference : node others position = node words position
  optional : node? others position = node? words position

namespace SameReading

variable {others : List String} {position place : Nat}

theorem of_set {word other : String} (present : words[position]? = some word)
    (alike : nodeReference other = nodeReference word) :
    SameReading words (words.set position other) position := by
  have inside : position < words.length := (List.getElem?_eq_some_iff.1 present).1
  have replaced : (words.set position other)[position]? = some other :=
    List.getElem?_set_self inside
  refine ⟨fun place apart => List.getElem?_set_ne apart.symm, ?_, ?_⟩
  · rw [node_eq replaced, node_eq present, alike]
  · rw [node?_eq replaced, node?_eq present, alike]

variable (same : SameReading words others position) (apart : place ≠ position)

include same apart

theorem argument_eq : argument others place = argument words place := by
  rw [argument, same.elsewhere place apart, argument]

theorem node_eq : node others place = node words place := by
  rw [node, same.argument_eq apart, node]

theorem number_eq : number others place = number words place := by
  rw [number, same.argument_eq apart, number]

theorem service_eq : service others place = service words place := by
  rw [service, same.argument_eq apart, service]

theorem owner_eq : owner others place = owner words place := by
  rw [owner, same.number_eq apart, owner]

theorem node?_eq : node? others place = node? words place := by
  rw [node?, same.elsewhere place apart, node?]

end SameReading

/-- A line means the same with another word for a node that it refers to. -/
theorem ofWords_eq_of_sameReading {others : List String} {position : Nat}
    (refers : Refers words position) (same : SameReading words others position) :
    ofWords others = ofWords words := by
  have away : 0 ≠ position := by cases refers <;> decide
  have unmoved := same.elsewhere 0 away
  cases refers with
  | target first listed =>
      have first_other := unmoved.trans first
      simp only [List.mem_cons, List.not_mem_nil, or_false] at listed
      rcases listed with rfl | rfl | rfl | rfl | rfl
      · rw [ofWords_rm first_other, ofWords_rm first, same.reference]
      · rw [ofWords_cluster first_other, ofWords_cluster first, same.reference,
          same.service_eq (by decide), same.number_eq (by decide), same.number_eq (by decide)]
      · rw [ofWords_leaf first_other, ofWords_leaf first, same.reference,
          same.node_eq (by decide), same.service_eq (by decide), same.owner_eq (by decide),
          same.number_eq (by decide), same.number_eq (by decide)]
      · rw [ofWords_update first_other, ofWords_update first, same.reference,
          same.number_eq (by decide), same.number_eq (by decide), same.node?_eq (by decide)]
      · rw [ofWords_delete first_other, ofWords_delete first, same.reference]
  | leafParent first =>
      rw [ofWords_leaf (unmoved.trans first), ofWords_leaf first, same.node_eq (by decide),
        same.reference, same.service_eq (by decide), same.owner_eq (by decide),
        same.number_eq (by decide), same.number_eq (by decide)]
  | newParent first =>
      rw [ofWords_update (unmoved.trans first), ofWords_update first, same.node_eq (by decide),
        same.number_eq (by decide), same.number_eq (by decide), same.optional]

end ScriptCommand

namespace ScriptSession

open Limiter (Reachable Injects smallConfig withFirstLeaf comesUp exists_start firstLeaf)

variable {limiter : BenchLimiter} {words : List String} {position : Nat} {word : String}
  {kind : NodeKind} {index : Nat}

/-- A line that refers to a node out of range does nothing; it is refused, unless it faults before as it
names a function without an address. -/
theorem perform_of_outside (sound : limiter.tree.WellFormed) (refers : Refers words position)
    (present : words[position]? = some word) (names : NamesSlot word kind index)
    (outside : kind.capacity ≤ index % 256) :
    (perform words limiter).2 = limiter ∧
      ((∃ cause, (perform words limiter).1 = .failed cause) ∨
        NamesLargest words ∧ ∃ cause, (perform words limiter).1 = .crashed cause) := by
  simp only [perform]
  split
  · next cause _ => exact ⟨rfl, .inl ⟨cause, rfl⟩⟩
  · next cause faulted =>
    exact ⟨rfl, .inr ⟨ScriptCommand.namesLargest_of_fault faulted, cause, rfl⟩⟩
  · next command read =>
    have concerns := ScriptCommand.concerns_of_refers refers present names.nodeReference_eq read
    have beyond : ∀ level, ¬(NodeId.ofSlot kind index).InRange level := by
      intro level inside
      exact absurd (NodeId.inRange_ofSlot_iff.1 inside).2 (Nat.not_lt.2 outside)
    rcases concerns.refused_of_outside sound beyond with ⟨cause, refused⟩
    rw [refused]
    exact ⟨rfl, .inl ⟨.refused cause, rfl⟩⟩

/-- A line does the same with another word for a node that it refers to. -/
theorem perform_set (refers : Refers words position) (present : words[position]? = some word)
    {other : String} (alike : nodeReference other = nodeReference word) (limiter : BenchLimiter) :
    perform (words.set position other) limiter = perform words limiter := by
  have same := ScriptCommand.SameReading.of_set present alike
  rw [perform, ScriptCommand.ofWords_eq_of_sameReading refers same, ← perform]

theorem ofSlot_mod (kind : NodeKind) (index : Nat) :
    NodeId.ofSlot kind (index % 256) = .ofSlot kind index := by
  rw [NodeId.ofSlot, NodeId.pack, Nat.mod_mod, ← NodeId.pack, ← NodeId.ofSlot]

/-- What a reference reaches, after any run: an index whose low eight bits are beyond the level reaches
nothing, and any other reaches the slot that its low eight bits name. -/
theorem references_reach_low_bits {profile : Profile} {config : DeviceConfig}
    {initial : Bench → Prop} {moves : Bench → Bench → Prop}
    (reached : Reachable profile config initial moves limiter) (refers : Refers words position)
    (present : words[position]? = some word) (names : NamesSlot word kind index) :
    (kind.capacity ≤ index % 256 →
      (perform words limiter).2 = limiter ∧
        ((∃ cause, (perform words limiter).1 = .failed cause) ∨
          NamesLargest words ∧ ∃ cause, (perform words limiter).1 = .crashed cause)) ∧
    ∀ other, NamesSlot other kind (index % 256) →
      perform (words.set position other) limiter = perform words limiter := by
  constructor
  · exact perform_of_outside reached.wellFormed refers present names
  · intro other names_low
    apply perform_set refers present
    rw [names_low.nodeReference_eq, names.nodeReference_eq, ofSlot_mod]

/-- After the first leaf was given an agreement, a line that refers to a slot beyond the leaves is refused
and does nothing. -/
theorem references_reach_low_bits_on_bench :
    ∃ limiter : BenchLimiter, Reachable Profile.gen4 smallConfig Bench.Direct Injects limiter ∧
      Refers ["delete", "leaf:320"] 1 ∧ NamesSlot "leaf:320" .leaf 320 ∧
      NodeKind.leaf.capacity ≤ 320 % 256 ∧
      (perform ["delete", "leaf:320"] limiter).2 = limiter ∧
      (∃ cause, (perform ["delete", "leaf:320"] limiter).1 = .failed cause) ∧
      perform ["delete", "leaf:64"] limiter = perform ["delete", "leaf:320"] limiter := by
  have passed : comesUp (fun _ => true) = true := by decide +kernel
  rcases exists_start passed with ⟨tree, bench, up, -⟩
  have reached : Reachable Profile.gen4 smallConfig Bench.Direct Injects
      (withFirstLeaf ⟨tree, bench⟩) :=
    .performed (.createSla firstLeaf) (.started ⟨rfl, rfl, rfl⟩ up)
  have refers : Refers ["delete", "leaf:320"] 1 := .target rfl (by decide)
  have names : NamesSlot "leaf:320" .leaf 320 :=
    ⟨"leaf".toList, "320".toList, by decide +kernel, by decide +kernel, by decide +kernel⟩
  have names_low : NamesSlot "leaf:64" .leaf (320 % 256) :=
    ⟨"leaf".toList, "64".toList, by decide +kernel, by decide +kernel, by decide +kernel⟩
  rcases references_reach_low_bits reached refers rfl names with ⟨refused, alike⟩
  rcases refused (by decide) with ⟨unchanged, failed | ⟨largest, -⟩⟩
  · exact ⟨_, reached, refers, names, by decide, unchanged, failed, alike _ names_low⟩
  · rcases largest with ⟨first, -⟩ | ⟨first, -⟩ <;> exact absurd first (by decide)

/-- A line that refers to slot 256 of the leaves, of which there are 64, takes the agreement of the first
leaf away. -/
theorem references_not_always_in_range :
    ∃ limiter : BenchLimiter, Reachable Profile.gen4 smallConfig Bench.Direct Injects limiter ∧
      Refers ["delete", "leaf:256"] 1 ∧ NamesSlot "leaf:256" .leaf 256 ∧
      NodeKind.leaf.capacity ≤ 256 ∧
      (∃ leaf, limiter.tree.nodes.find? firstLeaf.node = some leaf ∧ leaf.configured = true) ∧
      (perform ["delete", "leaf:256"] limiter).1 = .done [] ∧
      ∃ leaf, (perform ["delete", "leaf:256"] limiter).2.tree.nodes.find? firstLeaf.node = some leaf ∧
        leaf.configured = false := by
  have read : ofWords ["delete", "leaf:256"] = .ok (.delete (.ofSlot .leaf 256)) := by decide +kernel
  have passed : comesUp (fun limiter =>
      let before := withFirstLeaf limiter
      let ended := (ScriptCommand.delete (.ofSlot .leaf 256)).carryOut before
      (before.tree.nodes.find? firstLeaf.node).any Node.configured &&
        decide (ended.1 = .ok []) &&
        (ended.2.tree.nodes.find? firstLeaf.node).any fun leaf => !leaf.configured) = true := by
    decide +kernel
  rcases exists_start passed with ⟨tree, bench, up, result⟩
  simp only [Bool.and_eq_true, decide_eq_true_eq, Option.any_eq_true, Bool.not_eq_true'] at result
  rcases result with ⟨⟨configured, done⟩, vacant⟩
  have reached : Reachable Profile.gen4 smallConfig Bench.Direct Injects
      (withFirstLeaf ⟨tree, bench⟩) :=
    .performed (.createSla firstLeaf) (.started ⟨rfl, rfl, rfl⟩ up)
  have names : NamesSlot "leaf:256" .leaf 256 :=
    ⟨"leaf".toList, "256".toList, by decide +kernel, by decide +kernel, by decide +kernel⟩
  rcases ended : (ScriptCommand.delete (.ofSlot .leaf 256)).carryOut (withFirstLeaf ⟨tree, bench⟩) with
    ⟨outcome, after⟩
  rw [ended] at done vacant
  subst done
  have performed : perform ["delete", "leaf:256"] (withFirstLeaf ⟨tree, bench⟩) =
      (.done [], after) := by
    simp only [perform, read, ended]
  refine ⟨_, reached, .target rfl (by decide), names, by decide, configured, ?_⟩
  rw [performed]
  exact ⟨rfl, vacant⟩

end ScriptSession

end RateTree
