import RateTree.Tree

/-!
# Errors of plans

A plan is worked out on the tree alone, so the error of a plan that fails never concerns the
transport. An error of the transport therefore says that the plan was accepted.
-/

namespace RateTree

/-- Whether an error is reported as one of the transport. -/
def Error.OfTransport (cause : Error) : Prop := cause.category = .adminTransport

/-- Whether a failure is an error that is reported as one of the transport. -/
def Failure.OfTransport : Failure → Prop
  | .error cause => cause.OfTransport
  | .fault _ => False

/-- Whether a computation does not fail in a certain way. -/
def Outcome.Avoids {ε α : Type} (way : ε → Prop) (outcome : Except ε α) : Prop :=
  ∀ failure, outcome = .error failure → ¬way failure

namespace Outcome.Avoids

variable {ε α β : Type} {way : ε → Prop}

theorem ok (value : α) : Avoids way (.ok value : Except ε α) := by
  rintro failure ⟨⟩

theorem error {failure : ε} (other : ¬way failure) : Avoids way (.error failure : Except ε α) := by
  rintro _ ⟨⟩
  exact other

theorem bind {outcome : Except ε α} {next : α → Except ε β} (first : Avoids way outcome)
    (second : ∀ value, Avoids way (next value)) : Avoids way (outcome >>= next) := by
  cases outcome with
  | error failure =>
      rintro _ ⟨⟩
      exact first failure rfl
  | ok value => exact second value

theorem liftError {checked : Except Error α}
    (first : Avoids Error.OfTransport checked) :
    Avoids Failure.OfTransport (liftM checked : Outcome α) := by
  cases checked with
  | error cause =>
      rintro _ ⟨⟩
      exact first cause rfl
  | ok value => exact ok value

theorem liftFault (computed : Except Fault α) :
    Avoids Failure.OfTransport (liftM computed : Outcome α) := by
  cases computed with
  | error cause => exact error id
  | ok value => exact ok value

end Outcome.Avoids

open Outcome (Avoids)

theorem NodeId.checkRange_avoids_transport (id : NodeId) (kind : NodeKind) :
    Avoids Error.OfTransport (id.checkRange kind) := by
  simp only [checkRange]
  split
  · exact .ok ()
  · exact .error nofun

theorem NodeId.checkKind_avoids_transport (id : NodeId) : Avoids Error.OfTransport id.checkKind := by
  simp only [checkKind]
  split
  · exact .ok _
  · exact .error nofun

theorem PciAddress.checkedVf_avoids_transport (address : PciAddress) (totalVfs : Nat) :
    Avoids Error.OfTransport (address.checkedVf totalVfs) := by
  simp only [checkedVf]
  split
  · exact .error nofun
  · split
    · split
      · exact .ok _
      · exact .error nofun
    · exact .error nofun

theorem NodeStore.get_avoids_transport (store : NodeStore) (id : NodeId) :
    Avoids Error.OfTransport (store.get id) := by
  simp only [get]
  split
  · exact .ok _
  · exact .error nofun

theorem Tokens.ofRates_avoids_transport (profile : Profile) (service : Service) (cir pir : Nat) :
    Avoids Failure.OfTransport (ofRates profile service cir pir) := by
  apply (Avoids.liftFault _).bind
  intro tokens
  split
  · exact .error nofun
  · exact .ok tokens

namespace Tree

variable (tree : Tree)

theorem ringsOf_avoids_transport (sla : Sla) : Avoids Failure.OfTransport (tree.ringsOf sla) := by
  simp only [ringsOf]
  split
  · apply (Avoids.liftError (PciAddress.checkedVf_avoids_transport _ _)).bind
    intro vf
    exact .liftFault _
  · exact .ok []
  · exact .ok []

theorem checkRates_avoids_transport (service : Service) (cir pir : Nat) :
    Avoids Error.OfTransport (tree.checkRates service cir pir) := by
  simp only [checkRates]
  split
  · exact .error nofun
  · exact .ok ()

theorem checkRootRates_avoids_transport (service : Service) (cir pir : Nat) :
    Avoids Error.OfTransport (tree.checkRootRates service cir pir) := by
  simp only [checkRootRates]
  split
  · exact .ok ()
  · exact .error nofun

theorem rootOf_avoids_transport (service : Service) :
    Avoids Error.OfTransport (tree.rootOf service) := by
  simp only [rootOf]
  split
  · exact .ok _
  · exact .error nofun

theorem checkOwner_avoids_transport (request : Sla) :
    Avoids Error.OfTransport (tree.checkOwner request) := by
  simp only [checkOwner]
  split
  · exact (PciAddress.checkedVf_avoids_transport _ _).bind fun _ => .ok ()
  · exact .ok ()
  · exact .ok ()

theorem checkVacant_avoids_transport (request : Sla) :
    Avoids Error.OfTransport (tree.checkVacant request) := by
  apply (NodeStore.get_avoids_transport _ _).bind
  intro node
  split
  · exact .error nofun
  · split
    · exact .error nofun
    · exact .ok ()

theorem resolveParent_avoids_transport (request : Sla) (root : NodeId) :
    Avoids Error.OfTransport (resolveParent request root) := by
  simp only [resolveParent]
  split
  · exact .ok none
  · exact .ok _
  · split
    · exact .error nofun
    · exact (NodeId.checkRange_avoids_transport _ _).bind fun _ => .ok _

theorem checkNewParent_avoids_transport (parent : NodeId) (service : Service) (cir pir : Nat) :
    Avoids Error.OfTransport (tree.checkNewParent parent service cir pir) := by
  simp only [checkNewParent]
  split
  · exact .error nofun
  · split
    · exact .error nofun
    · split
      · exact .error nofun
      · split
        · exact .error nofun
        · exact .ok ()

theorem checkPlace_avoids_transport (request : Sla) (parent : Option NodeId) :
    Avoids Error.OfTransport (tree.checkPlace request parent) := by
  simp only [checkPlace]
  split
  · exact tree.checkRootRates_avoids_transport _ _ _
  · apply (tree.checkRates_avoids_transport _ _ _).bind
    intro _
    exact tree.checkNewParent_avoids_transport _ _ _ _

theorem checkRingsApart_avoids_transport (rings : List Nat) (others : List Node) :
    Avoids Failure.OfTransport (tree.checkRingsApart rings others) := by
  induction others with
  | nil => exact .ok ()
  | cons other rest ih =>
      simp only [checkRingsApart]
      split
      · exact ih
      · apply (tree.ringsOf_avoids_transport _).bind
        intro owned
        split
        · exact .error nofun
        · exact ih

theorem configuredNode_avoids_transport (id : NodeId) :
    Avoids Error.OfTransport (tree.configuredNode id) := by
  apply (NodeStore.get_avoids_transport _ _).bind
  intro node
  split
  · split
    · exact .ok _
    · exact .error nofun
  · exact .error nofun

theorem checkNoChildren_avoids_transport (id : NodeId) (kind : NodeKind) :
    Avoids Error.OfTransport (tree.checkNoChildren id kind) := by
  simp only [checkNoChildren]
  split
  · exact .ok ()
  · split
    · exact .error nofun
    · exact .ok ()

theorem planCreate_avoids_transport (request : Sla) :
    Avoids Failure.OfTransport (tree.planCreate request) := by
  apply (Avoids.liftError (NodeId.checkRange_avoids_transport _ _)).bind
  intro _
  apply (Avoids.liftError (tree.rootOf_avoids_transport _)).bind
  intro root
  apply (Avoids.liftError (tree.checkOwner_avoids_transport _)).bind
  intro _
  apply (Avoids.liftError (tree.checkVacant_avoids_transport _)).bind
  intro _
  apply (Avoids.liftError (resolveParent_avoids_transport _ _)).bind
  intro parent
  apply (Avoids.liftError (tree.checkPlace_avoids_transport _ _)).bind
  intro _
  apply (Tokens.ofRates_avoids_transport _ _ _ _).bind
  intro tokens
  apply (tree.ringsOf_avoids_transport _).bind
  intro rings
  apply (tree.checkRingsApart_avoids_transport _ _).bind
  intro _
  exact .ok _

theorem planDelete_avoids_transport (id : NodeId) : Avoids Failure.OfTransport (tree.planDelete id) := by
  apply (Avoids.liftError (NodeId.checkKind_avoids_transport _)).bind
  intro kind
  apply (Avoids.liftError (NodeId.checkRange_avoids_transport _ _)).bind
  intro _
  apply (Avoids.liftError (tree.configuredNode_avoids_transport _)).bind
  rintro ⟨node, sla⟩
  apply (Avoids.liftError (tree.checkNoChildren_avoids_transport _ _)).bind
  intro _
  apply (tree.ringsOf_avoids_transport _).bind
  intro rings
  exact .ok _

end Tree

end RateTree
